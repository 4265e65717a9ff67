import SparseTiling.Code.Print
import SparseTiling.Inspector.Argument
import SparseTiling.Library

/-!
# Inspectors

An inspector is a C++ source file with one exported function. The function
receives the tables of a chain, rebuilds its sets, maps and loops as objects of the
tiling library, runs the inspection and returns a handle for the executor.

The text depends on the chain and the settings alone, and not on the sizes and
buffers that are handed over when the inspector runs.

* `check`: what has to hold before an inspector is built.
* `body`: the statements of the function.
* `program`: the source file.
* `skipped`: warnings about what was left out.
* `generate`: everything together.
-/

namespace SparseTiling.Inspector

open Code (Expr Stmt Param Signature)

/-! ## Names in the emitted code -/

/-- The exported function. -/
def entryPoint : String := "inspector"

def setsTable : String := "sets"

def mapsTable : String := "maps"

def tileSizeParam : String := "tileSize"

def rankParam : String := "rank"

def coordsTable : String := "coords_dat"

def meshMapsTable : String := "mesh_maps"

def partitioningsTable : String := "partitionings"

def inspVar : String := "insp"

def execVar : String := "exec"

def meshMapList : String := "meshMaps"

def partitioningList : String := "setPartitionings"

/-- The variable of a mesh map. -/
def meshMapVar (m : MeshMap) : String := "mm_" ++ m.name

/-! ## Checks -/

/-- The coordinate field has to live on a set of the chain. -/
def checkCoordinates (c : Chain) (s : Settings) : Except Error Unit :=
  match s.coordinates with
  | none => .ok ()
  | some field =>
    if c.hasSet field.set then .ok () else .error (.unknownCoordinateSet c.name field.set)

/-- **What has to hold before an inspector is built;** gives the seed loop. -/
def check (c : Chain) (s : Settings) : Except Error Nat := do
  c.ensureConstructed
  c.checkReferences
  checkCoordinates c s
  c.seed

/-! ## Mesh maps and partitionings in use -/

/-- The mesh maps that are used, with their rows in the caller's table: none unless
the partitioning looks at the topology. -/
def meshMapRows (c : Chain) (s : Settings) : List (MeshMap × Nat) :=
  if s.partitioning.usesTopology then
    s.meshMaps.zipIdx.filter fun (m, _) => c.hasSets [m.source, m.target]
  else []

/-- The mesh maps that would be used but for a missing set. -/
def skippedMeshMaps (c : Chain) (s : Settings) : List MeshMap :=
  if s.partitioning.usesTopology then
    s.meshMaps.filter fun m => !c.hasSets [m.source, m.target]
  else []

/-- The partitionings that are used, with their rows in the caller's table. -/
def partitioningRows (c : Chain) : List (Partitioning × Nat) :=
  c.partitionings.zipIdx.filter fun (p, _) => c.hasSet p.set

/-- The partitionings of sets that are not in the chain. -/
def skippedPartitionings (c : Chain) : List Partitioning :=
  c.partitionings.filter fun p => !c.hasSet p.set

def meshMapWarning (m : MeshMap) : Warning :=
  { message := "mesh map `" ++ m.name ++ "` skipped"
    notes := ["`" ++ m.source ++ "` or `" ++ m.target ++ "` is not a set of this chain"] }

def partitioningWarning (p : Partitioning) : Warning :=
  { message := "partitioning of `" ++ p.set ++ "` skipped"
    notes := ["the set is not part of this chain"] }

/-- Warnings about what was left out. -/
def skipped (c : Chain) (s : Settings) : List Warning :=
  (skippedMeshMaps c s).map meshMapWarning ++ (skippedPartitionings c).map partitioningWarning

/-! ## Statements -/

def setDecls (c : Chain) : List Stmt :=
  c.sets.zipIdx.map fun (s, i) => .declare "set_t*" s.name (Library.set setsTable i s.superset)

def mapDecls (c : Chain) : List Stmt :=
  c.maps.zipIdx.map fun (m, i) =>
    .declare "map_t*" m.name (Library.map mapsTable i m.source m.target)

def descDecls (c : Chain) : List Stmt :=
  c.loops.zipIdx.map fun (l, i) =>
    .construct "desc_list" (l.descriptorsName i)
      [.list (l.descriptors.map fun d => Library.desc d.map d.mode)]

/-- Add a map to a list. -/
def insert (list item : String) : Stmt :=
  .expr (.call (.arrow (.ident list) "insert") [.ident item])

/-- A new list of maps. -/
def newList (name : String) : Stmt := .declare "map_list*" name (.new "map_list")

/-- The mesh maps in use: first all variables, then all insertions. -/
def meshMapStmts (c : Chain) (s : Settings) : List Stmt :=
  (meshMapRows c s).map (fun (m, i) =>
      .declare "map_t*" (meshMapVar m) (Library.map meshMapsTable i m.source m.target)) ++
    (meshMapRows c s).map fun (m, _) => insert meshMapList (meshMapVar m)

/-- The set of parts of a partitioning and the map to it. -/
def partitioningDecls (p : Partitioning) (row : Nat) : List Stmt :=
  [.declare "set_t*" p.partsName (Library.partSet partitioningsTable row),
    .declare "map_t*" p.mapName
      (Library.partMap p.mapName p.set p.partsName partitioningsTable row)]

/-- The partitionings in use: first all variables, then all insertions. -/
def partitioningStmts (c : Chain) : List Stmt :=
  (partitioningRows c).flatMap (fun (p, i) => partitioningDecls p i) ++
    (partitioningRows c).map fun (p, _) => insert partitioningList p.mapName

/-- The variable of a list that is not empty. -/
def listVar (name : String) (stmts : List Stmt) : Option String :=
  if stmts.isEmpty then none else some name

/-- The settings of the inspection and the inspector itself. -/
def initStmts (c : Chain) (s : Settings) : List Stmt :=
  [.declare "int" "avgTileSize" (.ident tileSizeParam),
    .declare "int" "prefetchHalo" (.int s.prefetch.toNat),
    .declare "bool" "ignoreWAR" (.bool s.ignoreWar),
    .declare "inspector_t*" inspVar
      (Library.inspInit "avgTileSize" s.execution s.coloring
        (listVar meshMapList (meshMapStmts c s)) (listVar partitioningList (partitioningStmts c))
        "prefetchHalo" "ignoreWAR" c.name)]

/-- The loops of the chain. -/
def loopStmts (c : Chain) : List Stmt :=
  c.loops.zipIdx.map fun (l, i) =>
    .expr (Library.inspAddParloop inspVar (l.runtimeName i) l.set (l.descriptorsName i))

/-- The inspection, from the seed loop. -/
def runStmts (seed : Nat) : List Stmt :=
  [.declare "int" "seedTilePoint" (.int seed), .expr (Library.inspRun inspVar "seedTilePoint")]

/-- What the first process reports about the inspection. -/
def reportStmts (s : Settings) : List Stmt :=
  match s.debug with
  | none => []
  | some level =>
    let shown := match s.coordinates with
      | none => []
      | some field =>
        [.expr (Library.generateVtk inspVar level field.set coordsTable field.constant rankParam)]
    [.ifThen (.equals (.ident rankParam) (.int 0))
        (.expr (Library.inspPrint inspVar level) :: shown),
      .blank]

/-- The handle for the executor; everything else is released. -/
def finishStmts : List Stmt :=
  [.declare "executor_t*" execVar (Library.execInit inspVar), .expr (Library.inspFree inspVar),
    .delete (.ident meshMapList), .delete (.ident partitioningList),
    .returnValue (.ident execVar)]

/-- **The statements of an inspector.** -/
def body (c : Chain) (s : Settings) (seed : Nat) : List Stmt :=
  .comment "Sets, maps and descriptors" :: setDecls c ++ mapDecls c ++ descDecls c ++ [.blank] ++
    (.comment "Mesh topology, used by topology-aware partitioning" :: newList meshMapList ::
      meshMapStmts c s ++ [.blank]) ++
    (.comment "Set partitionings, seeding the tiling" :: newList partitioningList ::
      partitioningStmts c ++ [.blank]) ++
    initStmts c s ++ [.blank] ++ loopStmts c ++ [.blank] ++ runStmts seed ++ [.blank] ++
    reportStmts s ++ finishStmts

/-! ## The source file -/

/-- The layouts of the tables. -/
def tableTypes : List Stmt :=
  [.structType "slope_set" [("char*", "name"), ("int", "core"), ("int", "exec"), ("int", "nonexec")],
    .blank, .structType "slope_map" [("char*", "name"), ("int*", "map"), ("int", "size")], .blank,
    .structType "slope_dat" [("void*", "data"), ("int", "size")], .blank,
    .structType "slope_part"
      [("char*", "name"), ("int*", "part"), ("int", "size"), ("int", "nparts")],
    .blank]

def params (c : Chain) : List Param :=
  [.array "slope_set" setsTable c.sets.length, .array "slope_map" mapsTable c.maps.length,
    { type := "int", name := tileSizeParam }, { type := "int", name := rankParam },
    .array "slope_dat" coordsTable 1, { type := "slope_map*", name := meshMapsTable },
    { type := "slope_part*", name := partitioningsTable }]

def signature (c : Chain) : Signature :=
  { result := "void*", name := entryPoint, params := params c }

/-- **The source file of an inspector.** -/
def program (c : Chain) (s : Settings) (seed : Nat) : List Stmt :=
  Library.headers.map .includeLocal ++ .blank :: tableTypes ++
    [.prototype { signature c with exported := true }, .blank,
      .function (signature c) (body c s seed)]

/-! ## Generation -/

/-- A generated inspector. -/
structure Emission where
  source : String
  arguments : List Argument
  warnings : List Warning
  seed : Nat

/-- The program of a chain that passes the checks. -/
def programOf (c : Chain) (s : Settings) : Except Error (List Stmt) := do
  return program c s (← check c s)

/-- **Generate the inspector of a chain.** -/
def generate (c : Chain) (s : Settings) : Except Error Emission := do
  let seed ← check c s
  return {
    source := Code.render (program c s seed)
    arguments := arguments c s
    warnings := skipped c s
    seed }

end SparseTiling.Inspector
