import SparseTiling.Code.Print
import SparseTiling.Settings
import SparseTiling.Text.Visible

/-!
# Details for the log

How settings look in the lines of the log for those who want to know everything: all
fields with their names, in one line.

* `settingsText`: the settings of a generation.
-/

namespace SparseTiling.CommandLine

/-- Items in brackets. -/
def listText (items : List String) : String := "[" ++ ", ".intercalate items ++ "]"

/-- Something that may be missing. -/
def optionText : Option String → String
  | none => "None"
  | some text => "Some(" ++ text ++ ")"

/-- Fields with their names in braces. -/
def recordText (kind : String) (fields : List (String × String)) : String :=
  kind ++ " \x7b " ++ ", ".intercalate (fields.map fun (name, value) => name ++ ": " ++ value) ++
    " \x7d"

def executionText : ExecutionMode → String
  | .sequential => "Sequential"
  | .threads => "Omp"
  | .processes => "OnlyMpi"
  | .threadsAndProcesses => "OmpMpi"

def coloringText : ColoringMode → String
  | .standard => "Default"
  | .random => "Random"
  | .fewest => "MinColors"

def partitioningText : PartitionMode → String
  | .chunk => "Chunk"
  | .metis => "Metis"

def debugText : DebugMode → String
  | .minimal => "Minimal"
  | .veryLow => "VeryLow"
  | .low => "Low"
  | .medium => "Medium"
  | .high => "High"

def coordinatesText (f : CoordinateField) : String :=
  recordText "CoordinateField"
    [("set", Text.shown f.set), ("values", listText (f.values.map Code.doubleStyle.write)),
      ("arity", toString f.dimension.arity)]

def meshMapText (m : MeshMap) : String :=
  recordText "DeclaredMap"
    [("name", Text.shown m.name), ("source", Text.shown m.source),
      ("target", Text.shown m.target),
      ("values", listText (m.values.map fun index => toString index.toInt))]

/-- **The settings of a generation,** all of them. -/
def settingsText (s : Settings) : String :=
  recordText "Config"
    [("execution", executionText s.execution), ("coloring", coloringText s.coloring),
      ("partitioning", partitioningText s.partitioning),
      ("debug", optionText (s.debug.map debugText)),
      ("coordinates", optionText (s.coordinates.map coordinatesText)),
      ("mesh_maps", listText (s.meshMaps.map meshMapText)), ("timing", toString s.timing),
      ("prefetch", toString s.prefetch.toNat), ("ignore_war", toString s.ignoreWar)]

end SparseTiling.CommandLine
