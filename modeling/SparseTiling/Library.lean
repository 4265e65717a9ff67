import SparseTiling.Code.Expr
import SparseTiling.Loop.Access
import SparseTiling.Settings.Mode

/-!
# The tiling library

Emitted code calls a library that inspects a chain and schedules its tiles. Each
function here builds one such call, with the arguments in the order in which the
library's headers declare them.
-/

namespace SparseTiling.Library

open Code (Expr)

/-- The headers of the library. -/
def headers : List String := ["inspector.h", "executor.h", "utils.h"]

/-! ## Sets, maps and descriptors -/

/-- A set from a row of a table, with the variable of its superset. -/
def set (table : String) (row : Nat) (superset : Option String) : Expr :=
  .callName "set"
    [.tableCell table row "name", .tableCell table row "core", .tableCell table row "exec",
      .tableCell table row "nonexec", .nameOrNull superset]

/-- The set of the parts of a partitioning: one element per part, no halo. -/
def partSet (table : String) (row : Nat) : Expr :=
  .callName "set"
    [.tableCell table row "name", .tableCell table row "nparts", .int 0, .int 0, .null]

/-- A map from a row of a table, between the variables of two sets. -/
def map (table : String) (row : Nat) (source target : String) : Expr :=
  .callName "map"
    [.tableCell table row "name", .ident source, .ident target, .tableCell table row "map",
      .tableCell table row "size"]

/-- The map from a set to the parts of a partitioning, with a literal name. -/
def partMap (name source target table : String) (row : Nat) : Expr :=
  .callName "map"
    [.str name, .ident source, .ident target, .tableCell table row "part",
      .tableCell table row "size"]

/-- An access descriptor. -/
def desc (m : MapRef) (mode : AccessMode) : Expr :=
  .callName "desc" [.ident m.text, .ident mode.keyword]

/-! ## Inspection -/

/-- A new inspector. The first and the last variables hold the tile size, the
prefetch distance and the relaxation of writes after reads. -/
def inspInit (tileSize : String) (mode : ExecutionMode) (coloring : ColoringMode)
    (meshMaps partitionings : Option String) (prefetch ignoreWar chainName : String) : Expr :=
  .callName "insp_init"
    [.ident tileSize, .ident (Mode.symbol mode), .ident (Mode.symbol coloring),
      .nameOrNull meshMaps, .nameOrNull partitionings, .ident prefetch, .ident ignoreWar,
      .str chainName]

/-- One more loop of the chain. -/
def inspAddParloop (insp loopName set descriptors : String) : Expr :=
  .callName "insp_add_parloop"
    [.ident insp, .str loopName, .ident set, .addressOf (.ident descriptors)]

def inspRun (insp seed : String) : Expr := .callName "insp_run" [.ident insp, .ident seed]

def inspPrint (insp : String) (level : DebugMode) : Expr :=
  .callName "insp_print" [.ident insp, .ident (Mode.symbol level)]

/-- A file that shows the tiled mesh. -/
def generateVtk (insp : String) (level : DebugMode) (set coords dim rank : String) : Expr :=
  .callName "generate_vtk"
    [.ident insp, .ident (Mode.symbol level), .ident set,
      .cast "double*" (.tableCell coords 0 "data"), .ident dim, .ident rank]

def execInit (insp : String) : Expr := .callName "exec_init" [.ident insp]

def inspFree (insp : String) : Expr := .callName "insp_free" [.ident insp]

/-! ## Execution -/

def execNumColors (exec : String) : Expr := .callName "exec_num_colors" [.ident exec]

def execTilesPerColor (exec color : String) : Expr :=
  .callName "exec_tiles_per_color" [.ident exec, .ident color]

def execTileAt (exec color index region : String) : Expr :=
  .callName "exec_tile_at" [.ident exec, .ident color, .ident index, .ident region]

/-- The part of a map that a tile uses in the loop at a position. -/
def tileGetLocalMap (tile : String) (position : Nat) (map : String) : Expr :=
  .callName "tile_get_local_map" [.ident tile, .int position, .str map]

/-- The iterations of the loop at a position that a tile runs. -/
def tileGetIterations (tile : String) (position : Nat) : Expr :=
  .callName "tile_get_iterations" [.ident tile, .int position]

def tileLoopSize (tile : String) (position : Nat) : Expr :=
  .callName "tile_loop_size" [.ident tile, .int position]

def timeStamp : Expr := .callName "time_stamp" []

end SparseTiling.Library
