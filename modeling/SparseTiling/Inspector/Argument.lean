import SparseTiling.Chain
import SparseTiling.Settings

/-!
# Arguments of an inspector

An inspector receives the sizes and buffers of a chain as tables when it is
called. An `Argument` says what the library knows of one of them, so that a host
program can build it: the rows of a table with their names and sizes, or a number.
-/

namespace SparseTiling.Inspector

/-- A row of the table of sets. -/
structure SetRow where
  name : String
  core : UInt32
  exec : UInt32
  nonexec : UInt32
  deriving DecidableEq

/-- A row of a table of maps. -/
structure MapRow where
  name : String
  size : Nat
  deriving DecidableEq

/-- A row of the table of partitionings. -/
structure PartRow where
  name : String
  size : Nat
  partCount : Nat
  deriving DecidableEq

/-- An argument of an inspector. -/
inductive Argument
  | sets (rows : List SetRow)
  | maps (rows : List MapRow)
  | tileSize (value : UInt32)
  | rank (value : UInt32)
  /-- No set and size zero where there are no coordinates. -/
  | coordinates (set : Option String) (size : Nat)
  | meshMaps (rows : List MapRow)
  | partitionings (rows : List PartRow)
  deriving DecidableEq

def setRow (s : MeshSet) : SetRow := ⟨s.name, s.core, s.exec, s.nonexec⟩

def mapRow (m : MeshMap) : MapRow := ⟨m.name, m.size⟩

def partRow (p : Partitioning) : PartRow := ⟨p.partsName, p.size, p.partCount⟩

/-- The arguments in the order of the inspector's parameters. -/
def arguments (c : Chain) (s : Settings) : List Argument :=
  [.sets (c.sets.map setRow), .maps (c.maps.map mapRow), .tileSize c.tileSize, .rank c.rank,
    .coordinates (s.coordinates.map (·.set)) ((s.coordinates.map (·.size)).getD 0),
    .meshMaps (s.meshMaps.map mapRow), .partitionings (c.partitionings.map partRow)]

end SparseTiling.Inspector
