import SparseTiling.Name

/-!
# Mesh maps and partitionings

A map leads from the elements of one set to elements of another through a buffer
of indices; a partitioning leads from the elements of a set to the numbers of
their parts. The buffers are handed to the generated code when it runs. What is told
about them beforehand is their lengths, and for a partitioning the number of parts,
which is read off the largest number in it.
-/

namespace SparseTiling

/-- An indirection from one set to another. -/
structure MeshMap where
  name : String
  source : String
  target : String
  /-- The flattened indices. -/
  values : List Int32
  deriving DecidableEq

namespace MeshMap

def size (m : MeshMap) : Nat := m.values.length

/-- The map under bare names. -/
def bare (m : MeshMap) : MeshMap :=
  { m with name := Name.bare m.name, source := Name.bare m.source, target := Name.bare m.target }

end MeshMap

/-- The number of the part of each element of a set. -/
structure Partitioning where
  set : String
  values : List Int32
  deriving DecidableEq

namespace Partitioning

def size (p : Partitioning) : Nat := p.values.length

/-- The partitioning under the bare name of its set. -/
def bare (p : Partitioning) : Partitioning := { p with set := Name.bare p.set }

/-- The name of the map from the set to its parts. -/
def mapName (p : Partitioning) : String := p.set ++ "_to_partitioning"

/-- The name of the set of parts. -/
def partsName (p : Partitioning) : String := p.set ++ "_partitioning"

/-- The number of parts: they are counted from zero, so one more than the
largest number, and none if there is no such number or it is negative. -/
def partCount (p : Partitioning) : Nat :=
  match (p.values.map Int32.toInt).max? with
  | some largest => (largest + 1).toNat
  | none => 0

end Partitioning

end SparseTiling
