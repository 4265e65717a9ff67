import SparseTiling.Name

/-!
# Mesh sets

A set is a named iteration domain: cells, nodes, edges. In distributed runs its
elements fall into a core, owned by the process, and two halos, of which only the
first is executed. A set may be a strict subset of another one, its superset.
-/

namespace SparseTiling

/-- A named iteration domain. -/
structure MeshSet where
  name : String
  /-- The elements owned by the process. -/
  core : UInt32
  /-- The halo elements that are executed redundantly. -/
  exec : UInt32 := 0
  /-- The halo elements that are only read. -/
  nonexec : UInt32 := 0
  superset : Option String := none
  deriving DecidableEq

namespace MeshSet

/-- The elements of all regions. -/
def total (s : MeshSet) : Nat := s.core.toNat + s.exec.toNat + s.nonexec.toNat

def isSubset (s : MeshSet) : Bool := s.superset.isSome

/-- The set under bare names. -/
def bare (s : MeshSet) : MeshSet :=
  { s with name := Name.bare s.name, superset := s.superset.map Name.bare }

end MeshSet

end SparseTiling
