import SparseTiling.Description
import SparseTiling.Json.Typed

/-!
# Reading descriptions

All fields of a description and of its hints may be left out, and so may the halos
and the superset of a set. The other records need all their fields. Fields that are
not known are passed over.
-/

namespace SparseTiling

open Json (Field Reader)

/-- The buffer of a map or a partitioning. -/
def Json.Reader.indices : Reader (List Int32) := .list .int32

/-- Reads a set. -/
def MeshSet.reader : Reader MeshSet :=
  .record
    [.needed "name" .string fun s name => { s with name },
      .needed "core" .uint32 fun s core => { s with core },
      .defaulted "exec" .uint32 fun s exec => { s with exec },
      .defaulted "nonexec" .uint32 fun s nonexec => { s with nonexec },
      .defaulted "superset" (.optional .string) fun s superset => { s with superset }]
    { name := "", core := 0 }

/-- Reads a map. -/
def MeshMap.reader : Reader MeshMap :=
  .record
    [.needed "name" .string fun m name => { m with name },
      .needed "source" .string fun m source => { m with source },
      .needed "target" .string fun m target => { m with target },
      .needed "values" .indices fun m values => { m with values }]
    { name := "", source := "", target := "", values := [] }

/-- Reads a descriptor. -/
def Descriptor.reader : Reader Descriptor :=
  .record
    [.needed "map" .string fun d map => { d with map := .named map },
      .needed "mode" (.word AccessMode.ofKeyword?) fun d mode => { d with mode }]
    { map := .direct, mode := .read }

/-- Reads a loop. -/
def Loop.reader : Reader Loop :=
  .record
    [.needed "name" .string fun l name => { l with name },
      .needed "set" .string fun l set => { l with set },
      .needed "descriptors" (.list Descriptor.reader) fun l descriptors => { l with descriptors }]
    { name := "", set := "", descriptors := [] }

/-- Reads a partitioning. -/
def Partitioning.reader : Reader Partitioning :=
  .record
    [.needed "set" .string fun p set => { p with set },
      .needed "values" .indices fun p values => { p with values }]
    { set := "", values := [] }

/-- Reads coordinates. -/
def Coordinates.reader : Reader Coordinates :=
  .record
    [.needed "set" .string fun c set => { c with set },
      .needed "values" (.list .double) fun c values => { c with values },
      .needed "arity" .int64 fun c arity => { c with arity }]
    { set := "", values := [], arity := 0 }

/-- Reads hints. -/
def Hints.reader : Reader Hints :=
  .record
    [.defaulted "ignore_war" .bool fun h ignoreWar => { h with ignoreWar },
      .defaulted "seed_loop" (.optional .int64) fun h seedLoop => { h with seedLoop },
      .defaulted "prefetch" .int64 fun h prefetch => { h with prefetch },
      .defaulted "coloring" (.optional .string) fun h coloring => { h with coloring },
      .defaulted "part_mode" (.optional .string) fun h partitioning => { h with partitioning }]
    {}

namespace Description

/-- Reads a description. -/
def reader : Reader Description :=
  .record
    [.defaulted "name" .string fun d name => { d with name },
      .defaulted "sets" (.list MeshSet.reader) fun d sets => { d with sets },
      .defaulted "maps" (.list MeshMap.reader) fun d maps => { d with maps },
      .defaulted "loops" (.list Loop.reader) fun d loops => { d with loops },
      .defaulted "partitionings" (.list Partitioning.reader) fun d partitionings =>
        { d with partitionings },
      .defaulted "mesh_maps" (.list MeshMap.reader) fun d meshMaps => { d with meshMaps },
      .defaulted "coordinates" (.optional Coordinates.reader) fun d coordinates =>
        { d with coordinates },
      .defaulted "tile_size" (.optional .uint32) fun d tileSize => { d with tileSize },
      .defaulted "rank" (.optional .uint32) fun d rank => { d with rank },
      .defaulted "options" Hints.reader fun d hints => { d with hints },
      .defaulted "execution_mode" (.optional .string) fun d execution => { d with execution },
      .defaulted "debug_mode" (.optional .string) fun d debug => { d with debug },
      .defaulted "timing" .bool fun d timing => { d with timing },
      .defaulted "kernels" (.list .string) fun d kernels => { d with kernels }]
    {}

/-- **The description that a text holds.** -/
def read (text : String) : Except Json.Fault Description := reader.read text

end Description

end SparseTiling
