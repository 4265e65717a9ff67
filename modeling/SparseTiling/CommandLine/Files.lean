/-!
# Files

A run reads one file and may write another. It reaches them through `Files`, so that
it does not matter whether they are on a disk or in a `Folder`.

* `FileFault`: why a file could not be read or written.
* `Files`: reading and writing.
* `Folder`: files without folders inside, as a value.
* `Folder.read`, `Folder.write`: what becomes of a path in such a folder.
-/

namespace SparseTiling.CommandLine

/-- Why a file could not be read or written. -/
inductive FileFault
  | missing
  | denied
  | isFolder
  | inFile
  | longName
  /-- The file is not UTF-8. -/
  | encoding
  | other (text : String)
  deriving DecidableEq

/-- The message of the operating system. -/
def FileFault.text : FileFault → String
  | .missing => "No such file or directory (os error 2)"
  | .denied => "Permission denied (os error 13)"
  | .isFolder => "Is a directory (os error 21)"
  | .inFile => "Not a directory (os error 20)"
  | .longName => "File name too long (os error 36)"
  | .encoding => "stream did not contain valid UTF-8"
  | .other text => text

/-- Reading and writing of whole files. -/
structure Files (m : Type → Type) where
  read : String → m (Except FileFault String)
  write : String → String → m (Except FileFault Unit)

/-- Files by their names, without folders inside. -/
structure Folder where
  entries : List (String × String) := []

namespace Folder

/-- The text of a file. -/
def get? (f : Folder) (name : String) : Option String := f.entries.lookup name

/-- A file with a new text; the others keep theirs. -/
def put (f : Folder) (name text : String) : Folder :=
  ⟨f.entries.filter (·.1 ≠ name) ++ [(name, text)]⟩

/-- The names along a path. -/
def steps (path : String) : List String :=
  (path.toList.splitOn '/').map String.ofList |>.filter (· ≠ "")

/-- Where a path can lead: to the folder itself, or to folders around it, which are taken
to be empty. -/
inductive Place
  | inside
  | around
  deriving DecidableEq

/-- Where a path starts. -/
def start (path : String) : Place := if path.toList.head? = some '/' then .around else .inside

/-- Whether a name stands for a folder that is always there. -/
def isDots (name : String) : Bool := name = "." || name = ".."

/-- Where a path that leads through a folder goes on. Other folders than those around
are not there to be gone through. -/
def through (f : Folder) (place : Place) (name : String) : Except FileFault Place :=
  if name = "." then .ok place
  else if name = ".." then .ok .around
  else if 255 < name.utf8ByteSize then .error .longName
  else if place = .inside && (f.get? name).isSome then .error .inFile
  else .error .missing

/-- The place and the name at the end of a path, if it is not a folder. -/
def resolve (f : Folder) (path : String) : Except FileFault (Place × String) := do
  if 4095 < path.utf8ByteSize then throw .longName
  let place ← (steps path).dropLast.foldlM f.through (start path)
  match (steps path).getLast? with
  | none => throw .isFolder
  | some name => if isDots name then throw .isFolder else return (place, name)

/-- Whether a path names a folder by the way it ends. -/
def endsAsFolder (path : String) : Bool := path.toList.getLast? = some '/'

/-- **Reads a file.** -/
def read (f : Folder) (path : String) : Except FileFault String := do
  let (place, name) ← f.resolve path
  if 255 < name.utf8ByteSize then throw .longName
  match place, f.get? name with
  | .inside, some text => if endsAsFolder path then throw .inFile else return text
  | _, _ => throw .missing

/-- **Writes a file.** One in a folder around this one leaves no trace here. -/
def write (f : Folder) (path text : String) : Except FileFault Folder := do
  let (place, name) ← f.resolve path
  if endsAsFolder path then throw .isFolder
  if 255 < name.utf8ByteSize then throw .longName
  match place with
  | .inside => return f.put name text
  | .around => return f

/-- The files whose text was different before, or which were not there. -/
def changes (before after : Folder) : List (String × String) :=
  after.entries.filter fun (name, text) => before.get? name ≠ some text

/-- A folder as a state that reading and writing go through. -/
def files : Files (StateM Folder) where
  read path := do return (← get).read path
  write path text := do
    match (← get).write path text with
    | .error fault => return .error fault
    | .ok folder =>
      set folder
      return .ok ()

end Folder

end SparseTiling.CommandLine
