import SparseTiling.Session

/-!
# Descriptions

A description says everything about a chain and its settings in one value, so that
code can be generated without a host program.

* `Description`: the chain, its settings and the kernels of its loops.
* `Description.session`: the session that the description asks for.
-/

namespace SparseTiling

/-- A coordinate field as it is described; the arity has not been checked. -/
structure Coordinates where
  set : String
  values : List Binary64
  arity : Int64
  deriving DecidableEq

/-- A chain, its settings and the kernels of its loops. Names are raw. -/
structure Description where
  name : String := ""
  sets : List MeshSet := []
  maps : List MeshMap := []
  /-- The loops in the order in which they run. -/
  loops : List Loop := []
  partitionings : List Partitioning := []
  /-- The topology of the mesh. -/
  meshMaps : List MeshMap := []
  coordinates : Option Coordinates := none
  tileSize : Option UInt32 := none
  rank : Option UInt32 := none
  hints : Hints := {}
  /-- The spelling of the execution mode. -/
  execution : Option String := none
  /-- The spelling of the debug mode. -/
  debug : Option String := none
  timing : Bool := false
  /-- One fragment per loop for the executor, or none at all. -/
  kernels : List String := []
  deriving DecidableEq

namespace Description

/-- Set all that comes after the loops, but the debug mode and timing. -/
def settle (d : Description) (s : Session) : Except Error Session := do
  let s := s.declarePartitionings d.partitionings
  let s := d.tileSize.elim s s.setTileSize
  let s := d.rank.elim s s.setRank
  let s ← s.configure d.hints
  let s := d.execution.elim s s.readExecution
  return if d.meshMaps.isEmpty then s else s.setMeshMaps d.meshMaps

/-- The session with everything but the debug mode and timing. -/
def prepare (d : Description) : Except Error Session := do
  let s ← (Session.new d.name).declareSets d.sets
  let s ← s.declareMaps d.maps
  let s ← s.declareLoops d.loops
  d.settle s

/-- The described coordinate field, if there is one. -/
def field (d : Description) : Except Error (Option CoordinateField) :=
  match d.coordinates with
  | none => .ok none
  | some c => some <$> CoordinateField.make c.set c.values c.arity.toInt

/-- Set the debug mode, for which alone the coordinates are looked at. -/
def setDebug (d : Description) (s : Session) : Except Error Session :=
  match d.debug with
  | none => .ok s
  | some mode => s.readDebug mode <$> d.field

/-- Set the debug mode and timing. -/
def complete (d : Description) (s : Session) : Except Error Session := do
  return (← d.setDebug s).setTiming d.timing

/-- **The session that a description asks for.** -/
def session (d : Description) : Except Error Session := do
  d.complete (← d.prepare)

end Description

end SparseTiling
