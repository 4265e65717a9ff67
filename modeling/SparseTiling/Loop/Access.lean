import SparseTiling.Error
import SparseTiling.Name

/-!
# Data accesses

A loop reads and writes data directly on its iteration set or through a map.

* `AccessMode`: what happens to the data.
* `MapRef`: how it is reached.
* `Descriptor`: both.
-/

namespace SparseTiling

/-- How a loop touches a dataset. -/
inductive AccessMode
  | read
  | write
  | readWrite
  /-- A commutative update. -/
  | increment
  deriving DecidableEq

namespace AccessMode

/-- The keyword of the tiling library. -/
def keyword : AccessMode → String
  | .read => "READ"
  | .write => "WRITE"
  | .readWrite => "RW"
  | .increment => "INC"

/-- All access modes. -/
def all : List AccessMode := [.read, .write, .readWrite, .increment]

/-- The access mode with exactly this keyword. -/
def ofKeyword? (text : String) : Option AccessMode := all.find? fun m => m.keyword = text

@[simp]
theorem ofKeyword?_keyword (m : AccessMode) : ofKeyword? m.keyword = some m := by
  cases m <;> decide

/-- The access mode that a text spells, in any case of ASCII letters, by its
keyword or in full. -/
def parse (text : String) : Except Error AccessMode :=
  match String.ofList (text.toList.map Char.toUpper) with
  | "READ" => .ok .read
  | "WRITE" => .ok .write
  | "RW" => .ok .readWrite
  | "READ_WRITE" => .ok .readWrite
  | "INC" => .ok .increment
  | "INCREMENT" => .ok .increment
  | _ => .error (.unknownAccess text)

end AccessMode

/-- The keyword for access without a map. -/
def directKeyword : String := "DIRECT"

/-- Access on the iteration set itself, or through a map. -/
inductive MapRef
  | direct
  | map (name : String)
  deriving DecidableEq

namespace MapRef

/-- The reference that a raw name stands for: the keyword is recognised before
the name is made bare. -/
def named (name : String) : MapRef :=
  if name = directKeyword then .direct else .map (Name.bare name)

def isDirect : MapRef → Bool
  | .direct => true
  | .map _ => false

def mapName? : MapRef → Option String
  | .direct => none
  | .map name => some name

/-- The reference as it is written in code. -/
def text : MapRef → String
  | .direct => directKeyword
  | .map name => name

/-- The reference under a bare name. -/
def bare : MapRef → MapRef
  | .direct => .direct
  | .map name => named name

end MapRef

/-- What a loop does with one dataset. -/
structure Descriptor where
  map : MapRef
  mode : AccessMode
  deriving DecidableEq

namespace Descriptor

/-- Access through the map with a raw name. -/
def through (map : String) (mode : AccessMode) : Descriptor := ⟨.named map, mode⟩

/-- Access on the iteration set. -/
def direct (mode : AccessMode) : Descriptor := ⟨.direct, mode⟩

/-- The descriptor under a bare name. -/
def bare (d : Descriptor) : Descriptor := { d with map := d.map.bare }

end Descriptor

end SparseTiling
