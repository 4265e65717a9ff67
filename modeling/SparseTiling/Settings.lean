import SparseTiling.Mesh.Map
import SparseTiling.Settings.Coordinates
import SparseTiling.Settings.Mode

/-!
# Settings

What code generation depends on besides the chain.

* `Settings`: the values in force.
* `Hints`: the part of them that is given together, with the seed loop.
* `Draft`: settings under construction, with the warnings of lenient readings.
* `Shared`: settings that several chains use, installed at most once.
-/

namespace SparseTiling

/-- The settings of a generation. -/
structure Settings where
  execution : ExecutionMode := .sequential
  coloring : ColoringMode := .standard
  partitioning : PartitionMode := .chunk
  /-- How much the inspector reports, if it does. -/
  debug : Option DebugMode := none
  /-- Coordinates with which the tiled mesh is shown. -/
  coordinates : Option CoordinateField := none
  /-- The topology of the mesh. -/
  meshMaps : List MeshMap := []
  /-- Whether every loop is timed. -/
  timing : Bool := false
  prefetch : UInt32 := 0
  /-- Whether writes after reads need no ordering. -/
  ignoreWar : Bool := false
  deriving DecidableEq

/-- Hints for the inspection of a chain. -/
structure Hints where
  ignoreWar : Bool := false
  seedLoop : Option Int64 := none
  prefetch : Int64 := 0
  coloring : Option String := none
  partitioning : Option String := none
  deriving DecidableEq

/-- Settings under construction. -/
structure Draft where
  settings : Settings := {}
  warnings : List Warning := []
  deriving DecidableEq

/-- A prefetch distance has to fit in 32 bits without a sign. -/
def prefetchOf (distance : Int) : Except Error UInt32 :=
  if 0 ≤ distance ∧ distance ≤ 0xFFFFFFFF then .ok (UInt32.ofNat distance.toNat)
  else .error (.prefetchDistance distance)

namespace Draft

/-- Add warnings after those that are there. -/
def warn (d : Draft) (ws : List Warning) : Draft := { d with warnings := d.warnings ++ ws }

def setExecution (d : Draft) (mode : ExecutionMode) : Draft :=
  { d with settings := { d.settings with execution := mode } }

def setColoring (d : Draft) (mode : ColoringMode) : Draft :=
  { d with settings := { d.settings with coloring := mode } }

def setPartitioning (d : Draft) (mode : PartitionMode) : Draft :=
  { d with settings := { d.settings with partitioning := mode } }

/-- Report at a level. A coordinate field replaces the one that is there; without
one, that one stays. -/
def setDebug (d : Draft) (mode : DebugMode) (field : Option CoordinateField) : Draft :=
  { d with
    settings :=
      { d.settings with
        debug := some mode
        coordinates := field.orElse fun _ => d.settings.coordinates } }

/-- Take a mode from its spelling, leniently. -/
def resolving {α : Type} [Mode α] (d : Draft) (text : String) (set : Draft → α → Draft) : Draft :=
  let (mode, ws) := Mode.resolve (α := α) text
  set (d.warn ws) mode

def readExecution (d : Draft) (text : String) : Draft := d.resolving text setExecution

def readColoring (d : Draft) (text : String) : Draft := d.resolving text setColoring

def readPartitioning (d : Draft) (text : String) : Draft := d.resolving text setPartitioning

def readDebug (d : Draft) (text : String) (field : Option CoordinateField) : Draft :=
  d.resolving text fun d mode => d.setDebug mode field

def setTiming (d : Draft) (on : Bool) : Draft :=
  { d with settings := { d.settings with timing := on } }

/-- Take the topology of the mesh from maps under raw names. -/
def setMeshMaps (d : Draft) (maps : List MeshMap) : Draft :=
  { d with settings := { d.settings with meshMaps := maps.map (·.bare) } }

def setIgnoreWar (d : Draft) (on : Bool) : Draft :=
  { d with settings := { d.settings with ignoreWar := on } }

def setPrefetch (d : Draft) (distance : Int) : Except Error Draft := do
  let prefetch ← prefetchOf distance
  return { d with settings := { d.settings with prefetch } }

/-- Apply hints, all or none of them. The seed loop belongs to the chain. -/
def configure (d : Draft) (h : Hints) : Except Error Draft := do
  let d ← d.setPrefetch h.prefetch.toInt
  let d := d.setIgnoreWar h.ignoreWar
  let d := match h.coloring with
    | some text => d.readColoring text
    | none => d
  return match h.partitioning with
    | some text => d.readPartitioning text
    | none => d

end Draft

/-- Settings that several chains use. -/
structure Shared where
  installed : Option Settings := none
  deriving DecidableEq

namespace Shared

/-- Install settings, once and for all. -/
def install (s : Shared) (settings : Settings) : Except Error Shared :=
  match s.installed with
  | none => .ok ⟨some settings⟩
  | some _ => .error .alreadyInstalled

/-- The installed settings, or the defaults. -/
def current (s : Shared) : Settings := s.installed.getD {}

end Shared

end SparseTiling
