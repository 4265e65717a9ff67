import Mathlib.Tactic
import SparseTiling.Inspector

/-!
# Reading an inspector back

A reader for inspectors: it is given the statements of the source file and the
arguments of the call, and says which chain and which settings they stand for. It knows
the functions of the tiling library and the order of their parameters, and nothing of
how the statements were made.

* `Reading`: what can be read. Buffers are not in it, only their lengths and how many parts
  they number.
* `partsAmong`: that number of parts.
* `Reading.of`: what should be read for a chain and its settings.
* `resolve`: the one declaration that a variable refers to.
* `readSet`, `readMap`, `readDescriptors`, `readLoop`: one declaration with its row.
* `decode`: the whole file.
-/

namespace SparseTiling.Inspector

open Code (Expr Stmt)

/-! ## What can be read -/

/-- A map without its buffer. -/
structure MapShape where
  name : String
  source : String
  target : String
  size : Nat
  deriving DecidableEq

/-- A partitioning without its buffer. -/
structure PartShape where
  set : String
  size : Nat
  partCount : Nat
  deriving DecidableEq

/-- A coordinate field without its values. The dimension is shown only where the
inspector reports. -/
structure FieldShape where
  set : String
  size : Nat
  dimension : Option Dimension
  deriving DecidableEq

/-- A chain and its settings, as far as an inspector depends on them. -/
structure Reading where
  name : String
  sets : List MeshSet
  maps : List MapShape
  loops : List Loop
  partitionings : List PartShape
  tileSize : UInt32
  rank : UInt32
  seed : Nat
  execution : ExecutionMode
  coloring : ColoringMode
  prefetch : UInt32
  ignoreWar : Bool
  debug : Option DebugMode
  coordinates : Option FieldShape
  /-- The table of mesh maps. -/
  meshMaps : List MapRow
  /-- The mesh maps that are handed on. -/
  topology : List MapShape
  /-- The partitionings that are handed on. -/
  seeding : List PartShape
  deriving DecidableEq

/-- The number of parts among numbers from zero on: one more than the largest of them, and none
where there is no number or only negative ones. -/
def partsAmong : List Int32 → Nat
  | [] => 0
  | id :: ids => max (id.toInt + 1).toNat (partsAmong ids)

def MapShape.of (m : MeshMap) : MapShape := ⟨m.name, m.source, m.target, m.values.length⟩

def PartShape.of (p : Partitioning) : PartShape := ⟨p.set, p.values.length, partsAmong p.values⟩

def FieldShape.of (s : Settings) (f : CoordinateField) : FieldShape :=
  ⟨f.set, f.size, if s.debug.isSome then some f.dimension else none⟩

/-- A mesh map is handed on where the partitioning looks at the topology and both its
sets are in the chain. -/
def handedOn (c : Chain) (s : Settings) (m : MeshMap) : Bool :=
  s.partitioning.usesTopology && c.hasSet m.source && c.hasSet m.target

/-- What should be read for a chain, with the seed in force, and its settings. -/
def Reading.of (c : Chain) (s : Settings) (seed : Nat) : Reading where
  name := c.name
  sets := c.sets
  maps := c.maps.map .of
  loops := c.loops
  partitionings := c.partitionings.map .of
  tileSize := c.tileSize
  rank := c.rank
  seed := seed
  execution := s.execution
  coloring := s.coloring
  prefetch := s.prefetch
  ignoreWar := s.ignoreWar
  debug := s.debug
  coordinates := s.coordinates.map (.of s)
  meshMaps := s.meshMaps.map fun m => ⟨m.name, m.values.length⟩
  topology := (s.meshMaps.filter (handedOn c s)).map .of
  seeding := (c.partitionings.filter fun p => c.hasSet p.set).map .of

/-! ## Expressions -/

/-- The field, where an expression is a cell of a given row of a table. -/
def fieldOf (table : String) (row : Nat) : Expr → Option String
  | .field (.index (.ident t) (.int r)) name => if t = table ∧ r = row then some name else none
  | _ => none

/-- The row, where an expression is a cell of a table. -/
def rowOf (table : String) : Expr → Option Nat
  | .field (.index (.ident t) (.int r)) _ => if t = table ∧ 0 ≤ r then some r.toNat else none
  | _ => none

/-- A variable or the null pointer. -/
def variableOf : Expr → Option (Option String)
  | .ident name => some (some name)
  | .null => some none
  | _ => none

/-- Variables and the names of what they hold. -/
abbrev Scope := List (String × String)

/-- The name of what a variable holds, where it is declared exactly once. -/
def resolve (scope : Scope) (var : String) : Option String :=
  match scope.filter fun d => d.1 = var with
  | [d] => some d.2
  | _ => none

/-- A text without what it ends in. -/
def withoutSuffix (suffix text : String) : Option String :=
  if suffix.toList.isSuffixOf text.toList then
    some (String.ofList (text.toList.take (text.toList.length - suffix.toList.length)))
  else none

/-- The value of a mode with a given symbol. -/
def ofSymbol? {α : Type} [Mode α] (text : String) : Option α :=
  ((Mode.spellings (α := α)).map (·.2)).find? fun mode => Mode.symbol mode = text

/-- The dimension with a given constant. -/
def ofConstant? (text : String) : Option Dimension :=
  [Dimension.one, .two, .three].find? fun d => "DIM" ++ toString d.arity = text

/-! ## Rows of the tables -/

def SetRow.text? (r : SetRow) (field : String) : Option String :=
  if field = "name" then some r.name else none

def SetRow.count? (r : SetRow) (field : String) : Option UInt32 :=
  if field = "core" then some r.core
  else if field = "exec" then some r.exec
  else if field = "nonexec" then some r.nonexec
  else none

def MapRow.text? (r : MapRow) (field : String) : Option String :=
  if field = "name" then some r.name else none

def MapRow.count? (r : MapRow) (field : String) : Option Nat :=
  if field = "size" then some r.size else none

def PartRow.count? (r : PartRow) (field : String) : Option Nat :=
  if field = "size" then some r.size
  else if field = "nparts" then some r.partCount
  else none

/-- Statements with the rows of a table, from row `i` on: as many of one as of the
other. -/
def readRows {ρ α : Type} (read : Nat → ρ → Stmt → Option α) :
    Nat → List ρ → List Stmt → Option (List α)
  | _, [], [] => some []
  | i, row :: rows, stmt :: stmts => do
    let item ← read i row stmt
    let items ← readRows read (i + 1) rows stmts
    return item :: items
  | _, _, _ => none

/-! ## Declarations -/

/-- The declarations with a type. -/
def declares (type : String) : Stmt → Bool
  | .decl t _ _ => t = type
  | .construct t _ _ => t = type
  | _ => false

/-- A set with its variable. The superset is a variable too. -/
structure SetDecl where
  var : String
  set : MeshSet

/-- The set that a declaration makes from row `i`. -/
def readSet (i : Nat) (row : SetRow) : Stmt → Option SetDecl
  | .decl _ var (some (.call (.ident f) [n, c, e, x, up])) =>
    if f = "set" then do
      let name ← row.text? (← fieldOf setsTable i n)
      let core ← row.count? (← fieldOf setsTable i c)
      let exec ← row.count? (← fieldOf setsTable i e)
      let nonexec ← row.count? (← fieldOf setsTable i x)
      let superset ← variableOf up
      return { var, set := { name, core, exec, nonexec, superset } }
    else none
  | _ => none

/-- The set with the name of its superset. -/
def SetDecl.link (scope : Scope) (d : SetDecl) : Option MeshSet :=
  match d.set.superset with
  | none => some d.set
  | some var => (resolve scope var).map fun name => { d.set with superset := some name }

/-- The variable and the map that a declaration makes from row `i` of a table. -/
def readMap (table : String) (scope : Scope) (i : Nat) (row : MapRow) :
    Stmt → Option (String × MapShape)
  | .decl _ var (some (.call (.ident f) [n, .ident source, .ident target, values, z])) =>
    if f = "map" ∧ fieldOf table i values = some "map" then do
      let name ← row.text? (← fieldOf table i n)
      let source ← resolve scope source
      let target ← resolve scope target
      let size ← row.count? (← fieldOf table i z)
      return (var, { name, source, target, size })
    else none
  | _ => none

/-- A map that says itself which row it is made from. -/
def readMeshMap (scope : Scope) (rows : List MapRow) (stmt : Stmt) : Option MapShape :=
  match stmt with
  | .decl _ _ (some (.call _ (n :: _))) => do
    let i ← rowOf meshMapsTable n
    let row ← rows[i]?
    return (← readMap meshMapsTable scope i row stmt).2
  | _ => none

/-- A partitioning, from the set of its parts and the map to them. -/
def readPart (scope : Scope) (rows : List PartRow) : Stmt × Stmt → Option PartShape
  | (.decl _ var (some (.call (.ident f) [n, count, .int a, .int b, .null])),
      .decl _ _ (some (.call (.ident g) [.str _, .ident source, .ident target, values, z]))) => do
    let i ← rowOf partitioningsTable n
    let row ← rows[i]?
    if f = "set" ∧ g = "map" ∧ target = var ∧ a = 0 ∧ b = 0 ∧
        fieldOf partitioningsTable i n = some "name" ∧
        fieldOf partitioningsTable i values = some "part" then
      let set ← resolve scope source
      let partCount ← row.count? (← fieldOf partitioningsTable i count)
      let size ← row.count? (← fieldOf partitioningsTable i z)
      return { set, size, partCount }
    else none
  | _ => none

/-- The keyword for direct access comes before the variables of maps. -/
def readDescriptor (scope : Scope) : Expr → Option Descriptor
  | .call (.ident f) [.ident map, .ident mode] =>
    if f = "desc" then do
      let map ← if map = directKeyword then some .direct else (resolve scope map).map .map
      return { map, mode := ← AccessMode.ofKeyword? mode }
    else none
  | _ => none

/-- The variable and the contents of a list of descriptors. -/
def readDescriptors (scope : Scope) : Stmt → Option (String × List Descriptor)
  | .construct _ var [.list items] => do return (var, ← items.mapM (readDescriptor scope))
  | _ => none

/-- The loop that is added at position `i`, with the list declared at that position. -/
def readLoop (scope : Scope) (i : Nat) (list : String × List Descriptor) : Stmt → Option Loop
  | .expr (.call (.ident f) [.ident insp, .str text, .ident set, .addressOf (.ident var)]) =>
    if f = "insp_add_parloop" ∧ insp = inspVar ∧ var = list.1 then do
      let name ← withoutSuffix ("_Loop_" ++ toString i) text
      let set ← resolve scope set
      return { name, set, descriptors := list.2 }
    else none
  | _ => none

/-! ## The inspection -/

/-- The value with which a variable is declared. -/
def initOf (stmts : List Stmt) (var : String) : Option Expr :=
  stmts.findSome? fun
    | .decl _ v (some e) => if v = var then some e else none
    | _ => none

def readTileSize (value : UInt32) : Expr → Option UInt32
  | .ident param => if param = tileSizeParam then some value else none
  | _ => none

def readPrefetch : Expr → Option UInt32
  | .int n => (prefetchOf n).toOption
  | _ => none

def readFlag : Expr → Option Bool
  | .bool b => some b
  | _ => none

/-- What the inspector is made from. -/
structure Opening where
  name : String
  tileSize : UInt32
  execution : ExecutionMode
  coloring : ColoringMode
  meshMaps : Option String
  partitionings : Option String
  prefetch : UInt32
  ignoreWar : Bool

def readOpening (tileSize : UInt32) (stmts : List Stmt) : Option Opening := do
  match ← initOf stmts inspVar with
  | .call (.ident f) [.ident size, .ident mode, .ident coloring, meshMaps, partitionings,
      .ident prefetch, .ident ignoreWar, .str name] =>
    if f = "insp_init" then
      return {
        name
        tileSize := ← readTileSize tileSize (← initOf stmts size)
        execution := ← ofSymbol? mode
        coloring := ← ofSymbol? coloring
        meshMaps := ← variableOf meshMaps
        partitionings := ← variableOf partitionings
        prefetch := ← readPrefetch (← initOf stmts prefetch)
        ignoreWar := ← readFlag (← initOf stmts ignoreWar) }
    else none
  | _ => none

def readSeed : List Stmt → Option Nat
  | [.decl _ var (some (.int n)), .expr (.call (.ident f) [.ident insp, .ident seed])] =>
    if f = "insp_run" ∧ insp = inspVar ∧ seed = var ∧ 0 ≤ n then some n.toNat else none
  | _ => none

/-- The set and the dimension of the mesh that is shown, if it is. -/
def readShown (scope : Scope) : List Stmt → Option (Option (String × Dimension))
  | [] => some none
  | [.expr (.call (.ident f) [.ident insp, _, .ident set, _, .ident dim, .ident rank])] =>
    if f = "generate_vtk" ∧ insp = inspVar ∧ rank = rankParam then do
      return some (← resolve scope set, ← ofConstant? dim)
    else none
  | _ => none

/-- The level of a report and what it shows. -/
def readReport (scope : Scope) :
    List Stmt → Option (Option DebugMode × Option (String × Dimension))
  | [.ifThen (.binary .eq (.ident rank) (.int n))
      (.expr (.call (.ident f) [.ident insp, .ident level]) :: shown)] =>
    if rank = rankParam ∧ n = 0 ∧ f = "insp_print" ∧ insp = inspVar then do
      return (some (← ofSymbol? level), ← readShown scope shown)
    else none
  | _ => none

/-- The last sections: the end, after a report if there is one. -/
def readClosing (scope : Scope) :
    List (List Stmt) → Option (Option DebugMode × Option (String × Dimension))
  | [_] => some (none, none)
  | [report, _] => readReport scope report
  | _ => none

/-- The coordinates that are handed over, with the dimension that is shown. -/
def readField (set : Option String) (size : Nat) (shown : Option (String × Dimension)) :
    Option (Option FieldShape) :=
  match set, shown with
  | none, none => some none
  | some set, none => some (some ⟨set, size, none⟩)
  | some set, some (on, dim) => if set = on then some (some ⟨set, size, some dim⟩) else none
  | none, some _ => none

/-! ## The file -/

/-- The parameters of an inspector, one for each table. -/
def tableParams : List String :=
  [setsTable, mapsTable, tileSizeParam, rankParam, coordsTable, meshMapsTable, partitioningsTable]

/-- The body of the exported function, which takes the tables in their order. -/
def bodyOf (program : List Stmt) : Option (List Stmt) :=
  program.findSome? fun
    | .function head body =>
      if head.name = entryPoint ∧ head.params.map (·.name) = tableParams then some body else none
    | _ => none

def isBlank : Stmt → Bool
  | .blank => true
  | _ => false

/-- What is handed on in a list, if one is. -/
def readHanded {α : Type} (name : String) (items : Option (List α)) :
    Option String → Option (List α)
  | none => some []
  | some list => if list = name then items else none

/-- The chain and the settings that the sections of a body and the tables stand for. -/
def readSections (tables : List Argument) (sections : List (List Stmt)) : Option Reading :=
  match tables, sections with
  | [.sets setRows, .maps mapRows, .tileSize tileSize, .rank rank, .coordinates set size,
      .meshMaps meshRows, .partitionings partRows],
    chain :: mesh :: parts :: opening :: loops :: run :: rest => do
    let setDecls ← readRows readSet 0 setRows (chain.filter (declares "set_t*"))
    let setScope := setDecls.map fun d => (d.var, d.set.name)
    let sets ← setDecls.mapM (SetDecl.link setScope)
    let mapDecls ←
      readRows (readMap mapsTable setScope) 0 mapRows (chain.filter (declares "map_t*"))
    let mapScope := mapDecls.map fun d => (d.1, d.2.name)
    let lists ← (chain.filter (declares "desc_list")).mapM (readDescriptors mapScope)
    let loops ← readRows (readLoop setScope) 0 lists loops
    let opening ← readOpening tileSize opening
    let topology ← readHanded meshMapList
      ((mesh.filter (declares "map_t*")).mapM (readMeshMap setScope meshRows)) opening.meshMaps
    let seeding ← readHanded partitioningList
      (((parts.filter (declares "set_t*")).zip (parts.filter (declares "map_t*"))).mapM
        (readPart setScope partRows)) opening.partitionings
    let partitionings ← partRows.mapM fun r =>
      (withoutSuffix "_partitioning" r.name).map fun set => ⟨set, r.size, r.partCount⟩
    let seed ← readSeed run
    let (debug, shown) ← readClosing setScope rest
    let coordinates ← readField set size shown
    return {
      name := opening.name, sets, maps := mapDecls.map (·.2), loops, partitionings
      tileSize := opening.tileSize, rank, seed, execution := opening.execution
      coloring := opening.coloring, prefetch := opening.prefetch, ignoreWar := opening.ignoreWar
      debug, coordinates, meshMaps := meshRows, topology, seeding }
  | _, _ => none

/-- **The chain and the settings that an inspector stands for.** The sections of its body
are set apart by blank lines. -/
def decode (program : List Stmt) (tables : List Argument) : Option Reading := do
  readSections tables ((← bodyOf program).splitOnP isBlank)

end SparseTiling.Inspector
