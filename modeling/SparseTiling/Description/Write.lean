import SparseTiling.Description
import SparseTiling.Json.Print

/-!
# Writing descriptions

A description is written as a record with all its fields, null for those that have
no value.
-/

namespace SparseTiling

/-- A set as a record. -/
def MeshSet.toJson (s : MeshSet) : Json :=
  .record [("name", .string s.name), ("core", .nat s.core.toNat), ("exec", .nat s.exec.toNat),
    ("nonexec", .nat s.nonexec.toNat), ("superset", .optional .string s.superset)]

/-- The buffer of a map or a partitioning. -/
def Json.indices (values : List Int32) : Json := .list (values.map fun v => .int v.toInt)

/-- A map as a record. -/
def MeshMap.toJson (m : MeshMap) : Json :=
  .record [("name", .string m.name), ("source", .string m.source), ("target", .string m.target),
    ("values", .indices m.values)]

/-- A descriptor as a record. -/
def Descriptor.toJson (d : Descriptor) : Json :=
  .record [("map", .string d.map.text), ("mode", .string d.mode.keyword)]

/-- A loop as a record. -/
def Loop.toJson (l : Loop) : Json :=
  .record [("name", .string l.name), ("set", .string l.set),
    ("descriptors", .list (l.descriptors.map (·.toJson)))]

/-- A partitioning as a record. -/
def Partitioning.toJson (p : Partitioning) : Json :=
  .record [("set", .string p.set), ("values", .indices p.values)]

/-- Coordinates as a record. -/
def Coordinates.toJson (c : Coordinates) : Json :=
  .record [("set", .string c.set), ("values", .list (c.values.map .double)),
    ("arity", .int c.arity.toInt)]

/-- Hints as a record. -/
def Hints.toJson (h : Hints) : Json :=
  .record [("ignore_war", .bool h.ignoreWar),
    ("seed_loop", .optional (fun seed => .int seed.toInt) h.seedLoop),
    ("prefetch", .int h.prefetch.toInt), ("coloring", .optional .string h.coloring),
    ("part_mode", .optional .string h.partitioning)]

namespace Description

/-- A description as a record. -/
def toJson (d : Description) : Json :=
  .record [("name", .string d.name), ("sets", .list (d.sets.map (·.toJson))),
    ("maps", .list (d.maps.map (·.toJson))), ("loops", .list (d.loops.map (·.toJson))),
    ("partitionings", .list (d.partitionings.map (·.toJson))),
    ("mesh_maps", .list (d.meshMaps.map (·.toJson))),
    ("coordinates", .optional (·.toJson) d.coordinates),
    ("tile_size", .optional (fun size => .nat size.toNat) d.tileSize),
    ("rank", .optional (fun rank => .nat rank.toNat) d.rank), ("options", d.hints.toJson),
    ("execution_mode", .optional .string d.execution), ("debug_mode", .optional .string d.debug),
    ("timing", .bool d.timing), ("kernels", .strings d.kernels)]

/-- **The text of a description.** -/
def write (d : Description) : String := d.toJson.render

end Description

end SparseTiling
