import SparseTiling.Executor.Binding
import SparseTiling.Inspector.Argument
import SparseTiling.Json.Print

/-!
# Listings

What a host program needs to know about emitted code, as JSON: the arguments that
an inspector expects and the local names that the kernels of an executor use.
-/

namespace SparseTiling

namespace Inspector

/-- A row of the table of sets as a record. -/
def SetRow.toJson (r : SetRow) : Json :=
  .record [("name", .string r.name), ("core", .nat r.core.toNat), ("exec", .nat r.exec.toNat),
    ("nonexec", .nat r.nonexec.toNat)]

/-- A row of a table of maps as a record. -/
def MapRow.toJson (r : MapRow) : Json := .record [("name", .string r.name), ("size", .nat r.size)]

/-- A row of the table of partitionings as a record. -/
def PartRow.toJson (r : PartRow) : Json :=
  .record [("name", .string r.name), ("size", .nat r.size), ("nparts", .nat r.partCount)]

/-- An argument as a record, which begins with the kind of the argument. -/
def Argument.toJson : Argument → Json
  | .sets rows => table "sets" (rows.map (·.toJson))
  | .maps rows => table "maps" (rows.map (·.toJson))
  | .tileSize value => .record [("kind", .string "tile_size"), ("value", .nat value.toNat)]
  | .rank value => .record [("kind", .string "rank"), ("value", .nat value.toNat)]
  | .coordinates set size =>
    .record [("kind", .string "coordinates"), ("set", .optional .string set), ("size", .nat size)]
  | .meshMaps rows => table "mesh_maps" (rows.map (·.toJson))
  | .partitionings rows => table "partitionings" (rows.map (·.toJson))
where
  table (kind : String) (rows : List Json) : Json :=
    .record [("kind", .string kind), ("rows", .list rows)]

/-- The listing of arguments. -/
def listing (arguments : List Argument) : String := (Json.list (arguments.map (·.toJson))).render

end Inspector

namespace Executor

/-- A binding as a record. -/
def Binding.toJson (b : Binding) : Json :=
  .record [("ordinal", .nat b.position), ("loop_name", .string b.loopName),
    ("local_maps", .record (b.localMaps.map fun (map, name) => (map, .string name))),
    ("iterations", .string b.iterations)]

/-- The listing of bindings. -/
def listing (bindings : List Binding) : String := (Json.list (bindings.map (·.toJson))).render

end Executor

end SparseTiling
