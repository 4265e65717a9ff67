import SparseTiling.Proofs.Chain.References
import SparseTiling.Proofs.Inspector.Reading
import SparseTiling.Proofs.Rows

/-!
# Inspectors lose nothing

Reading an inspector back gives the chain and the settings it was generated from. Every
emitter is met by the part of the reader for it, and the parts agree on positions, rows
and variables.

* `resolve_self`: the variable of a declared item is its own name.
* `readRows_setDecls`, `readRows_mapDecls`, `mapM_descDecls`, `readRows_loopStmts`:
  the declarations of sets, maps and descriptors, and the loops.
* `mapM_meshMapStmts`, `mapM_partitioningStmts`: what is handed on besides.
* `readOpening_initStmts`, `readReport_reportStmts`: the inspection.
* `decode_program`: reading after writing.
-/

namespace SparseTiling.Inspector

open Code (Expr Stmt)

variable {c : Chain} {s : Settings}

/-! ## Reading lists -/

/-- Statements made from items and their positions are read with the rows of the items. -/
theorem readRows_zipIdx {α ρ β : Type} {read : Nat → ρ → Stmt → Option β} {row : α → ρ}
    {stmt : α × Nat → Stmt} {item : α → β} {xs : List α}
    (h : ∀ x ∈ xs, ∀ i, read i (row x) (stmt (x, i)) = some (item x)) (i : Nat) :
    readRows read i (xs.map row) ((xs.zipIdx i).map stmt) = some (xs.map item) := by
  induction xs generalizing i with
  | nil => rfl
  | cons x xs ih =>
    simp only [List.map_cons, List.zipIdx_cons, readRows]
    rw [h x List.mem_cons_self, ih (fun y hy => h y (List.mem_cons_of_mem x hy))]
    rfl

/-- **The variable of a declared item is its own name,** as long as no two items share
one. -/
theorem resolve_self {names : List String} (hn : names.Nodup) {n : String} (h : n ∈ names) :
    resolve (names.map fun n => (n, n)) n = some n := by
  have hone : names.filter (fun m => decide (m = n)) = [n] := by
    rw [List.filter_eq, List.count_eq_one_of_mem hn h]; rfl
  have : (names.map fun n => (n, n)).filter (fun d => decide (d.1 = n)) = [(n, n)] := by
    rw [List.filter_map, show ((fun d : String × String => decide (d.1 = n)) ∘ fun n => (n, n)) =
      fun m => decide (m = n) from rfl, hone]
    rfl
  rw [resolve, this]

theorem withoutSuffix_append (text suffix : String) :
    withoutSuffix suffix (text ++ suffix) = some text := by
  have hsuf : suffix.toList.isSuffixOf (text ++ suffix).toList = true := by
    rw [List.isSuffixOf_iff_suffix, String.toList_append]
    exact List.suffix_append _ _
  rw [withoutSuffix, if_pos hsuf, String.toList_append, List.length_append, Nat.add_sub_cancel,
    List.take_left, String.ofList_toList]

/-! ## Expressions -/

@[simp]
theorem fieldOf_tableCell (table : String) (row : Nat) (field : String) :
    fieldOf table row (.tableCell table row field) = some field := by
  simp [fieldOf, Expr.tableCell]

@[simp]
theorem rowOf_tableCell (table : String) (row : Nat) (field : String) :
    rowOf table (.tableCell table row field) = some row := by
  simp [rowOf, Expr.tableCell]

@[simp]
theorem variableOf_nameOrNull (name : Option String) :
    variableOf (.nameOrNull name) = some name := by
  cases name <;> rfl

@[simp]
theorem ofSymbol?_execution (mode : ExecutionMode) : ofSymbol? (Mode.symbol mode) = some mode := by
  cases mode <;> decide

@[simp]
theorem ofSymbol?_coloring (mode : ColoringMode) : ofSymbol? (Mode.symbol mode) = some mode := by
  cases mode <;> decide

@[simp]
theorem ofSymbol?_debug (mode : DebugMode) : ofSymbol? (Mode.symbol mode) = some mode := by
  cases mode <;> decide

@[simp]
theorem ofConstant?_constant (f : CoordinateField) : ofConstant? f.constant = some f.dimension := by
  unfold CoordinateField.constant
  cases f.dimension <;> decide

/-! ## Sets -/

/-- The variables of the sets. -/
def setScope (c : Chain) : Scope := (c.sets.map (·.name)).map fun n => (n, n)

/-- The variables of the maps. -/
def mapScope (c : Chain) : Scope := (c.maps.map (·.name)).map fun n => (n, n)

theorem resolve_setScope (hc : c.Sound) {n : String} (h : c.hasSet n = true) :
    resolve (setScope c) n = some n := by
  refine resolve_self hc.setNames.distinct ?_
  simpa [Chain.hasSet] using h

theorem readRows_setDecls :
    readRows readSet 0 (c.sets.map setRow) (setDecls c) =
      some (c.sets.map fun s => { var := s.name, set := s }) := by
  refine readRows_zipIdx (fun s _ i => ?_) 0
  simp [readSet, setRow, Stmt.declare, Library.set, Expr.callName, SetRow.text?, SetRow.count?]

theorem mapM_link (hc : c.Sound) :
    (c.sets.map fun s => { var := s.name, set := s : SetDecl }).mapM (SetDecl.link (setScope c)) =
      some c.sets := by
  conv_rhs => rw [← List.map_id c.sets]
  refine mapM_map_some fun s hs => ?_
  cases hsup : s.superset with
  | none => simp [SetDecl.link, hsup]
  | some name =>
    -- a superset is one of the sets, since it stands in front
    have hset : c.hasSet name = true := by
      obtain ⟨i, hi⟩ := List.getElem?_of_mem hs
      obtain ⟨j, t, -, ht, hname⟩ := hc.nested i s name hi hsup
      simpa [Chain.hasSet] using ⟨t, List.mem_of_getElem? ht, hname⟩
    obtain ⟨n, core, exec, nonexec, superset⟩ := s
    obtain rfl : superset = some name := hsup
    simp [SetDecl.link, resolve_setScope hc hset]

/-! ## Maps -/

theorem readMap_declare (table var : String) (i : Nat) {scope : Scope} {m : MeshMap}
    (hs : resolve scope m.source = some m.source) (ht : resolve scope m.target = some m.target) :
    readMap table scope i (mapRow m)
      (.declare "map_t*" var (Library.map table i m.source m.target)) = some (var, .of m) := by
  simp [readMap, mapRow, Stmt.declare, Library.map, Expr.callName, MapRow.text?, MapRow.count?, hs,
    ht, MapShape.of, MeshMap.size]

theorem readRows_mapDecls (hc : c.Sound)
    (hmaps : ∀ m ∈ c.maps, c.hasSet m.source = true ∧ c.hasSet m.target = true) :
    readRows (readMap mapsTable (setScope c)) 0 (c.maps.map mapRow) (mapDecls c) =
      some (c.maps.map fun m => (m.name, .of m)) :=
  readRows_zipIdx (fun m hm i => readMap_declare mapsTable m.name i
    (resolve_setScope hc (hmaps m hm).1) (resolve_setScope hc (hmaps m hm).2)) 0

/-! ## Loops -/

theorem readDescriptor_desc {scope : Scope} {d : Descriptor} (hd : d.map ≠ .map directKeyword)
    (hr : ∀ n, d.map = .map n → resolve scope n = some n) :
    readDescriptor scope (Library.desc d.map d.mode) = some d := by
  obtain ⟨r, mode⟩ := d
  cases r with
  | direct => simp [readDescriptor, Library.desc, Expr.callName, MapRef.text]
  | map name =>
    have hne : name ≠ directKeyword := fun h => hd (by rw [h])
    simp [readDescriptor, Library.desc, Expr.callName, MapRef.text, hne, hr name rfl]

theorem mapM_descDecls (hc : c.Sound) (hu : c.Unambiguous) (hr : c.Resolved) :
    (descDecls c).mapM (readDescriptors (mapScope c)) =
      some (c.loops.zipIdx.map fun (l, i) => (l.descriptorsName i, l.descriptors)) := by
  refine mapM_map_some ?_
  rintro ⟨l, i⟩ hl
  have hl : l ∈ c.loops := List.mem_of_getElem? (List.mk_mem_zipIdx_iff_getElem?.1 hl)
  have hitems : (l.descriptors.map fun d => Library.desc d.map d.mode).mapM
      (readDescriptor (mapScope c)) = some l.descriptors := by
    conv_rhs => rw [← List.map_id l.descriptors]
    exact mapM_map_some fun d hd => readDescriptor_desc (hu l hl d hd) fun n hn =>
      resolve_self hc.mapNames.distinct (hr.accesses l hl d hd n hn)
  simp [readDescriptors, hitems]

/-- A loop is read with the list of its own position. -/
theorem readRows_loops {scope : Scope} {loops : List Loop}
    (h : ∀ l ∈ loops, resolve scope l.set = some l.set) (i : Nat) :
    readRows (readLoop scope) i
      ((loops.zipIdx i).map fun (l, i) => (l.descriptorsName i, l.descriptors))
      ((loops.zipIdx i).map fun (l, i) =>
        .expr (Library.inspAddParloop inspVar (l.runtimeName i) l.set (l.descriptorsName i))) =
      some loops := by
  induction loops generalizing i with
  | nil => rfl
  | cons l loops ih =>
    have hread : readLoop scope i (l.descriptorsName i, l.descriptors)
        (.expr (Library.inspAddParloop inspVar (l.runtimeName i) l.set (l.descriptorsName i))) =
        some l := by
      have hname : withoutSuffix ("_Loop_" ++ toString i) (l.runtimeName i) = some l.name := by
        rw [Loop.runtimeName, String.append_assoc, withoutSuffix_append]
      simp only [readLoop, Library.inspAddParloop, Expr.callName, and_self, ↓reduceIte, hname,
        h l List.mem_cons_self, Option.bind_eq_bind, Option.bind_some]
      rfl
    simp only [List.zipIdx_cons, List.map_cons, readRows]
    rw [hread, ih fun m hm => h m (List.mem_cons_of_mem l hm)]
    rfl

theorem readRows_loopStmts (hc : c.Sound) (hr : c.Resolved) :
    readRows (readLoop (setScope c)) 0
      (c.loops.zipIdx.map fun (l, i) => (l.descriptorsName i, l.descriptors)) (loopStmts c) =
      some c.loops :=
  readRows_loops (fun l hl => resolve_setScope hc (hr.loops l hl)) 0

/-! ## Mesh maps and partitionings -/

theorem mem_meshMapRows {a : MeshMap × Nat} (h : a ∈ meshMapRows c s) :
    s.meshMaps[a.2]? = some a.1 ∧ c.hasSet a.1.source = true ∧ c.hasSet a.1.target = true := by
  unfold meshMapRows at h
  split at h
  · obtain ⟨hget, hsets⟩ := getElem?_of_mem_zipIdx_filter h
    simpa [hget, Chain.hasSets] using hsets
  · simp at h

theorem map_fst_meshMapRows : (meshMapRows c s).map (·.1) = s.meshMaps.filter (handedOn c s) := by
  unfold meshMapRows handedOn
  split
  · rename_i hu
    simpa [hu, Chain.hasSets] using
      map_fst_zipIdx_filter (fun m => c.hasSet m.source && c.hasSet m.target) s.meshMaps 0
  · rename_i hu
    simp [hu]

/-- The declarations of mesh maps, read with the rows that they name. -/
theorem mapM_meshMapStmts (hc : c.Sound) :
    ((meshMapStmts c s).filter (declares "map_t*")).mapM
      (readMeshMap (setScope c) (s.meshMaps.map mapRow)) =
      some ((s.meshMaps.filter (handedOn c s)).map .of) := by
  have hfilter : (meshMapStmts c s).filter (declares "map_t*") =
      (meshMapRows c s).map fun a =>
        .declare "map_t*" (meshMapVar a.1)
          (Library.map meshMapsTable a.2 a.1.source a.1.target) := by
    unfold meshMapStmts
    rw [List.filter_append, filter_map_all fun a _ => rfl, filter_map_none fun a _ => rfl,
      List.append_nil]
  rw [hfilter, ← map_fst_meshMapRows, List.map_map]
  refine mapM_map_some ?_
  rintro ⟨m, i⟩ hm
  obtain ⟨hget, hsource, htarget⟩ := mem_meshMapRows hm
  have hread := readMap_declare meshMapsTable (meshMapVar m) i
    (resolve_setScope hc hsource) (resolve_setScope hc htarget)
  have hrow : (s.meshMaps.map mapRow)[i]? = some (mapRow m) := by
    rw [List.getElem?_map, hget, Option.map_some]
  have hname : rowOf meshMapsTable (.tableCell meshMapsTable i "name") = some i := by simp
  simp only [readMeshMap, Stmt.declare, Library.map, Expr.callName, hname, Option.bind_eq_bind,
    Option.bind_some, hrow]
  simp only [Stmt.declare, Library.map, Expr.callName] at hread
  rw [hread]
  rfl

theorem mem_partitioningRows {a : Partitioning × Nat} (h : a ∈ partitioningRows c) :
    c.partitionings[a.2]? = some a.1 ∧ c.hasSet a.1.set = true :=
  getElem?_of_mem_zipIdx_filter h

/-- In the declarations of partitionings, sets and maps alternate. -/
theorem filter_partitioningDecls (rows : List (Partitioning × Nat)) :
    ((rows.flatMap fun (p, i) => partitioningDecls p i).filter (declares "set_t*")).zip
        ((rows.flatMap fun (p, i) => partitioningDecls p i).filter (declares "map_t*")) =
      rows.map fun (p, i) =>
        (.declare "set_t*" p.partsName (Library.partSet partitioningsTable i),
          .declare "map_t*" p.mapName
            (Library.partMap p.mapName p.set p.partsName partitioningsTable i)) := by
  induction rows with
  | nil => rfl
  | cons a rows ih =>
    obtain ⟨p, i⟩ := a
    rw [List.flatMap_cons, List.filter_append, List.filter_append, List.map_cons, ← ih]
    simp [partitioningDecls, declares, Stmt.declare]

theorem partsAmong_eq (ids : List Int32) :
    partsAmong ids = ((ids.map Int32.toInt).max?.map fun n => (n + 1).toNat).getD 0 := by
  induction ids with
  | nil => rfl
  | cons id ids ih =>
    rw [partsAmong, ih, List.map_cons, List.max?_cons]
    cases (ids.map Int32.toInt).max? with
    | none => simp
    | some n =>
      simp only [Option.map_some, Option.getD_some, Option.elim_some]
      omega

theorem partRow_eq (p : Partitioning) :
    partRow p = ⟨p.set ++ "_partitioning", p.values.length, partsAmong p.values⟩ := by
  rw [partsAmong_eq, partRow, Partitioning.partCount]
  cases (p.values.map Int32.toInt).max? <;> rfl

theorem readPart_partitioningDecls {scope : Scope} {rows : List PartRow} {p : Partitioning} {i : Nat}
    (hrow : rows[i]? = some (partRow p)) (hset : resolve scope p.set = some p.set) :
    readPart scope rows
      (.declare "set_t*" p.partsName (Library.partSet partitioningsTable i),
        .declare "map_t*" p.mapName
          (Library.partMap p.mapName p.set p.partsName partitioningsTable i)) = some (.of p) := by
  simp [readPart, Stmt.declare, Library.partSet, Library.partMap, Expr.callName, hrow, hset,
    PartRow.count?, partRow_eq, PartShape.of]

theorem mapM_partitioningStmts (hc : c.Sound) :
    (((partitioningStmts c).filter (declares "set_t*")).zip
        ((partitioningStmts c).filter (declares "map_t*"))).mapM
      (readPart (setScope c) (c.partitionings.map partRow)) =
      some ((c.partitionings.filter fun p => c.hasSet p.set).map .of) := by
  have hinsert : ∀ type, ((partitioningRows c).map fun a =>
      insert partitioningList a.1.mapName).filter (declares type) = [] := fun type =>
    filter_map_none fun a _ => rfl
  have hrows : (partitioningRows c).map (·.1) = c.partitionings.filter fun p => c.hasSet p.set :=
    map_fst_zipIdx_filter (fun p : Partitioning => c.hasSet p.set) c.partitionings 0
  unfold partitioningStmts
  rw [List.filter_append, List.filter_append, hinsert, hinsert, List.append_nil, List.append_nil,
    filter_partitioningDecls, ← hrows, List.map_map]
  refine mapM_map_some ?_
  rintro ⟨p, i⟩ hp
  obtain ⟨hget, hset⟩ := mem_partitioningRows hp
  have hrow : (c.partitionings.map partRow)[i]? = some (partRow p) := by
    rw [List.getElem?_map, hget, Option.map_some]
  exact readPart_partitioningDecls hrow (resolve_setScope hc hset)

/-- The table of partitionings alone tells their sets. -/
theorem mapM_partRow (ps : List Partitioning) :
    (ps.map partRow).mapM (fun r =>
      (withoutSuffix "_partitioning" r.name).map fun set => ⟨set, r.size, r.partCount⟩) =
      some (ps.map PartShape.of) :=
  mapM_map_some fun p _ => by
    simp [partRow_eq, withoutSuffix_append, PartShape.of]

/-- Where nothing is declared, no list is handed on, and there is nothing to read. -/
theorem readHanded_listVar {α : Type} {name : String} {stmts : List Stmt} {items : List α}
    {read : Option (List α)} (hread : read = some items) (hempty : stmts = [] → items = []) :
    readHanded name read (listVar name stmts) = some items := by
  unfold listVar
  cases stmts with
  | nil => simp [readHanded, hempty rfl]
  | cons stmt stmts => simp [readHanded, hread]

/-! ## The inspection -/

theorem readPrefetch_toNat (n : UInt32) : readPrefetch (.int n.toNat) = some n := by
  have hn := n.toNat_lt
  have hr : 0 ≤ (n.toNat : Int) ∧ (n.toNat : Int) ≤ 0xFFFFFFFF := by omega
  simp only [readPrefetch, prefetchOf, if_pos hr, Except.toOption, Int.toNat_natCast,
    UInt32.ofNat_toNat]

theorem readOpening_initStmts :
    readOpening c.tileSize (initStmts c s) =
      some {
        name := c.name
        tileSize := c.tileSize
        execution := s.execution
        coloring := s.coloring
        meshMaps := listVar meshMapList (meshMapStmts c s)
        partitionings := listVar partitioningList (partitioningStmts c)
        prefetch := s.prefetch
        ignoreWar := s.ignoreWar } := by
  have hinsp : initOf (initStmts c s) inspVar = some (Library.inspInit "avgTileSize" s.execution
      s.coloring (listVar meshMapList (meshMapStmts c s))
      (listVar partitioningList (partitioningStmts c)) "prefetchHalo" "ignoreWAR" c.name) := rfl
  have hsize : initOf (initStmts c s) "avgTileSize" = some (.ident tileSizeParam) := rfl
  have hprefetch : initOf (initStmts c s) "prefetchHalo" = some (.int s.prefetch.toNat) := rfl
  have hwar : initOf (initStmts c s) "ignoreWAR" = some (.bool s.ignoreWar) := rfl
  simp only [readOpening, hinsp, Library.inspInit, Expr.callName, Option.bind_eq_bind,
    Option.bind_some, hsize, hprefetch, hwar, readTileSize, readPrefetch_toNat, readFlag,
    ofSymbol?_execution, ofSymbol?_coloring, variableOf_nameOrNull, if_true, Option.pure_def]

theorem readSeed_runStmts (seed : Nat) : readSeed (runStmts seed) = some seed := by
  simp [readSeed, runStmts, Stmt.declare, Library.inspRun, Expr.callName]

/-- The sections after the run: a report, if there is one, and the end. -/
def closing (s : Settings) : List (List Stmt) :=
  match s.debug with
  | none => [finishStmts]
  | some _ => [(reportStmts s).dropLast, finishStmts]

/-- What a report shows of the mesh. -/
def shownField (s : Settings) : Option (String × Dimension) :=
  if s.debug.isSome then s.coordinates.map fun f => (f.set, f.dimension) else none

theorem readReport_reportStmts {level : DebugMode} {scope : Scope} (hd : s.debug = some level)
    (hf : ∀ f, s.coordinates = some f → resolve scope f.set = some f.set) :
    readReport scope (reportStmts s).dropLast = some (some level, shownField s) := by
  cases hcoord : s.coordinates with
  | none =>
    simp [reportStmts, hd, hcoord, readReport, Expr.equals, Library.inspPrint, Expr.callName,
      readShown, shownField]
  | some f =>
    simp [reportStmts, hd, hcoord, readReport, Expr.equals, Library.inspPrint, Expr.callName,
      readShown, shownField, Library.generateVtk, hf f hcoord]

theorem readClosing_closing {scope : Scope}
    (hf : ∀ f, s.coordinates = some f → resolve scope f.set = some f.set) :
    readClosing scope (closing s) = some (s.debug, shownField s) := by
  unfold closing
  cases hd : s.debug with
  | none => simp [readClosing, shownField, hd]
  | some level => exact readReport_reportStmts hd hf

theorem readField_coordinates :
    readField (s.coordinates.map (·.set)) ((s.coordinates.map (·.size)).getD 0) (shownField s) =
      some (s.coordinates.map (.of s)) := by
  cases hcoord : s.coordinates with
  | none => simp [readField, shownField, hcoord]
  | some f =>
    cases hd : s.debug <;> simp [readField, shownField, hcoord, hd, FieldShape.of]

/-! ## The file -/

/-- The declarations of sets, maps and descriptors. -/
def chainSection (c : Chain) : List Stmt :=
  .comment "Sets, maps and descriptors" :: setDecls c ++ mapDecls c ++ descDecls c

def meshSection (c : Chain) (s : Settings) : List Stmt :=
  .comment "Mesh topology, used by topology-aware partitioning" :: newList meshMapList ::
    meshMapStmts c s

def partSection (c : Chain) : List Stmt :=
  .comment "Set partitionings, seeding the tiling" :: newList partitioningList ::
    partitioningStmts c

theorem isBlank_chainSection : ∀ t ∈ chainSection c, isBlank t = false := by
  intro t ht
  simp only [chainSection, setDecls, mapDecls, descDecls, List.cons_append, List.mem_cons,
    List.mem_append, List.mem_map] at ht
  rcases ht with rfl | (⟨a, -, rfl⟩ | ⟨a, -, rfl⟩) | ⟨a, -, rfl⟩ <;> rfl

theorem isBlank_meshSection : ∀ t ∈ meshSection c s, isBlank t = false := by
  intro t ht
  simp only [meshSection, meshMapStmts, List.mem_cons, List.mem_append, List.mem_map] at ht
  rcases ht with rfl | rfl | ⟨a, -, rfl⟩ | ⟨a, -, rfl⟩ <;> rfl

theorem isBlank_partSection : ∀ t ∈ partSection c, isBlank t = false := by
  intro t ht
  simp only [partSection, partitioningStmts, partitioningDecls, List.mem_cons, List.mem_append,
    List.mem_map, List.mem_flatMap, List.not_mem_nil, or_false] at ht
  rcases ht with rfl | rfl | ⟨a, -, rfl | rfl⟩ | ⟨a, -, rfl⟩ <;> rfl

theorem isBlank_loopStmts : ∀ t ∈ loopStmts c, isBlank t = false := by
  intro t ht
  obtain ⟨a, -, rfl⟩ := List.mem_map.1 ht
  rfl

theorem splitOnP_closing : (reportStmts s ++ finishStmts).splitOnP isBlank = closing s := by
  have hend : ∀ t ∈ finishStmts, isBlank t = false := by
    simp [finishStmts, isBlank, Stmt.declare]
  unfold closing
  cases hd : s.debug with
  | none =>
    have hr : reportStmts s = [] := by simp [reportStmts, hd]
    rw [hr, List.nil_append, List.splitOnP_eq_singleton hend]
  | some level =>
    obtain ⟨cond, body, hr⟩ : ∃ cond body, reportStmts s = [.ifThen cond body, .blank] := by
      simp [reportStmts, hd]
    rw [hr, show [Stmt.ifThen cond body, .blank] ++ finishStmts =
        [.ifThen cond body] ++ .blank :: finishStmts from rfl,
      List.splitOnP_append_cons_of_forall_mem (by simp [isBlank]) _ rfl,
      List.splitOnP_eq_singleton hend]
    rfl

/-- The statements of an inspector come in sections. -/
theorem body_eq (seed : Nat) : body c s seed =
    chainSection c ++ .blank :: (meshSection c s ++ .blank :: (partSection c ++ .blank ::
      (initStmts c s ++ .blank :: (loopStmts c ++ .blank :: (runStmts seed ++ .blank ::
        (reportStmts s ++ finishStmts)))))) := by
  simp [body, chainSection, meshSection, partSection]

/-- The sections of a body. -/
theorem splitOnP_body (seed : Nat) :
    (body c s seed).splitOnP isBlank =
      chainSection c :: meshSection c s :: partSection c :: initStmts c s :: loopStmts c ::
        runStmts seed :: closing s := by
  have hinit : ∀ t ∈ initStmts c s, isBlank t = false := by
    simp [initStmts, isBlank, Stmt.declare]
  have hrun : ∀ t ∈ runStmts seed, isBlank t = false := by
    simp [runStmts, isBlank, Stmt.declare]
  rw [body_eq, List.splitOnP_append_cons_of_forall_mem isBlank_chainSection _ rfl,
    List.splitOnP_append_cons_of_forall_mem isBlank_meshSection _ rfl,
    List.splitOnP_append_cons_of_forall_mem isBlank_partSection _ rfl,
    List.splitOnP_append_cons_of_forall_mem hinit _ rfl,
    List.splitOnP_append_cons_of_forall_mem isBlank_loopStmts _ rfl,
    List.splitOnP_append_cons_of_forall_mem hrun _ rfl, splitOnP_closing]

theorem params_names : (params c).map (·.name) = tableParams := by
  have harray : ∀ type name n, (Code.Param.array type name n).name = name := by
    intro type name n
    unfold Code.Param.array
    split <;> rfl
  simp [params, harray, tableParams]

theorem bodyOf_program (seed : Nat) : bodyOf (program c s seed) = some (body c s seed) := by
  simp [bodyOf, program, Library.headers, tableTypes, params_names, signature]

theorem filter_setDecls : (chainSection c).filter (declares "set_t*") = setDecls c := by
  have hset : (setDecls c).filter (declares "set_t*") = setDecls c := filter_map_all fun a _ => rfl
  have hmap : (mapDecls c).filter (declares "set_t*") = [] := filter_map_none fun a _ => rfl
  have hdesc : (descDecls c).filter (declares "set_t*") = [] := filter_map_none fun a _ => rfl
  simp [chainSection, hset, hmap, hdesc, declares]

theorem filter_mapDecls : (chainSection c).filter (declares "map_t*") = mapDecls c := by
  have hset : (setDecls c).filter (declares "map_t*") = [] := filter_map_none fun a _ => rfl
  have hmap : (mapDecls c).filter (declares "map_t*") = mapDecls c := filter_map_all fun a _ => rfl
  have hdesc : (descDecls c).filter (declares "map_t*") = [] := filter_map_none fun a _ => rfl
  simp [chainSection, hset, hmap, hdesc, declares]

theorem filter_descDecls : (chainSection c).filter (declares "desc_list") = descDecls c := by
  have hset : (setDecls c).filter (declares "desc_list") = [] := filter_map_none fun a _ => rfl
  have hmap : (mapDecls c).filter (declares "desc_list") = [] := filter_map_none fun a _ => rfl
  have hdesc : (descDecls c).filter (declares "desc_list") = descDecls c :=
    filter_map_all fun a _ => rfl
  simp [chainSection, hset, hmap, hdesc, declares]

theorem readHanded_topology (hc : c.Sound) :
    readHanded meshMapList
      (((meshSection c s).filter (declares "map_t*")).mapM
        (readMeshMap (setScope c) (s.meshMaps.map mapRow)))
      (listVar meshMapList (meshMapStmts c s)) =
      some ((s.meshMaps.filter (handedOn c s)).map .of) := by
  have hfilter : (meshSection c s).filter (declares "map_t*") =
      (meshMapStmts c s).filter (declares "map_t*") := by
    simp [meshSection, declares, newList, Stmt.declare]
  rw [hfilter]
  refine readHanded_listVar (mapM_meshMapStmts hc) fun hempty => ?_
  have hrows : meshMapRows c s = [] := by simpa [meshMapStmts] using hempty
  rw [← map_fst_meshMapRows, hrows]
  rfl

theorem readHanded_seeding (hc : c.Sound) :
    readHanded partitioningList
      ((((partSection c).filter (declares "set_t*")).zip
          ((partSection c).filter (declares "map_t*"))).mapM
        (readPart (setScope c) (c.partitionings.map partRow)))
      (listVar partitioningList (partitioningStmts c)) =
      some ((c.partitionings.filter fun p => c.hasSet p.set).map .of) := by
  have hsets : (partSection c).filter (declares "set_t*") =
      (partitioningStmts c).filter (declares "set_t*") := by
    simp [partSection, declares, newList, Stmt.declare]
  have hmaps : (partSection c).filter (declares "map_t*") =
      (partitioningStmts c).filter (declares "map_t*") := by
    simp [partSection, declares, newList, Stmt.declare]
  rw [hsets, hmaps]
  refine readHanded_listVar (mapM_partitioningStmts hc) fun hempty => ?_
  have hread := mapM_partitioningStmts hc
  rw [hempty] at hread
  simpa using hread.symm

/-- What generation has checked. -/
theorem check_eq_ok {seed : Nat} (h : check c s = .ok seed) :
    c.Resolved ∧ (∀ f, s.coordinates = some f → c.hasSet f.set = true) ∧ c.seed = .ok seed := by
  obtain ⟨⟨⟩, -, h⟩ := bind_eq_ok h
  obtain ⟨⟨⟩, href, h⟩ := bind_eq_ok h
  obtain ⟨⟨⟩, hcoord, hseed⟩ := bind_eq_ok h
  refine ⟨Chain.checkReferences_eq_ok.1 href, fun f hf => ?_, hseed⟩
  by_contra hset
  simp [checkCoordinates, hf, hset] at hcoord

theorem programOf_of_check {seed : Nat} (h : check c s = .ok seed) :
    programOf c s = .ok (program c s seed) := by
  rw [programOf, h]
  rfl

theorem generate_of_check {seed : Nat} (h : check c s = .ok seed) :
    ∃ e, generate c s = .ok e ∧ e.source = Code.render (program c s seed) := by
  rw [generate, h]
  exact ⟨_, rfl, rfl⟩

/-- **Reading after writing.** -/
theorem decode_program (hc : c.Sound) (hu : c.Unambiguous) {seed : Nat} (h : check c s = .ok seed) :
    decode (program c s seed) (arguments c s) = some (.of c s seed) := by
  obtain ⟨hr, hcoord, -⟩ := check_eq_ok h
  have hset : (c.sets.map fun s => { var := s.name, set := s : SetDecl }).map
      (fun d => (d.var, d.set.name)) = setScope c := by
    simp [setScope]
  have hmap : (c.maps.map fun m => (m.name, MapShape.of m)).map (fun d => (d.1, d.2.name)) =
      mapScope c := by
    simp [mapScope, MapShape.of]
  have hclosing := readClosing_closing fun f hf => resolve_setScope hc (hcoord f hf)
  unfold decode
  rw [bodyOf_program, Option.bind_eq_bind, Option.bind_some, splitOnP_body]
  -- every section is read back by its own lemma, in the order of the file
  simp only [readSections, arguments, filter_setDecls, readRows_setDecls, Option.bind_eq_bind,
    Option.bind_some, hset, mapM_link hc, filter_mapDecls, readRows_mapDecls hc hr.maps, hmap,
    filter_descDecls, mapM_descDecls hc hu hr, readRows_loopStmts hc hr, readOpening_initStmts,
    readHanded_topology hc, readHanded_seeding hc, mapM_partRow, readSeed_runStmts, hclosing,
    readField_coordinates]
  simp [Reading.of, mapRow, MeshMap.size, Function.comp_def]

/-- **Inspectors lose nothing.** Take a chain that calls lead to, whose descriptors are
built from map names or for direct access, and any settings. If an inspector is
generated, then reading back its statements and its arguments gives the chain, the seed
in force and the settings. -/
theorem decode_generate {name : String} {calls : List Chain.Call} {s : Settings} {e : Emission}
    (hcalls : ∀ call ∈ calls, call.Built)
    (h : generate ((Chain.new name).afterAll calls) s = .ok e) :
    ∃ program, programOf ((Chain.new name).afterAll calls) s = .ok program ∧
      e.source = Code.render program ∧
      ((Chain.new name).afterAll calls).seed = .ok e.seed ∧
      decode program e.arguments = some (.of ((Chain.new name).afterAll calls) s e.seed) := by
  obtain ⟨seed, hcheck, he⟩ := bind_eq_ok h
  obtain rfl := Except.ok.inj he
  exact ⟨program _ s seed, programOf_of_check hcheck, rfl, (check_eq_ok hcheck).2.2,
    decode_program (Chain.sound_afterAll name calls) (Chain.unambiguous_afterAll name hcalls)
      hcheck⟩

/-- Two loops over edges, declared under decorated names, after a refused declaration. -/
def edgeCalls : List Chain.Call :=
  [.declareSets [{ name := "cells", core := 1, superset := some "ghost" }],
    .declareSets
      [{ name := "mesh.border", core := 10, superset := some "edges" },
        { name := "edges", core := 250, exec := 3 }, { name := "cells#", core := 100 }],
    .declareMaps [{ name := "edge2cell", source := "edges", target := "cells", values := [0, 1] }],
    .declareLoops
      [{ name := "flux", set := "edges",
          descriptors := [.through "mesh.edge2cell" .read, .direct .write,
            .through "edge2cell" .increment] },
        { name := "flux", set := "border", descriptors := [.through "edge2cell" .read] }],
    .declarePartitionings [{ set := "cells", values := [0, 1, 1] }, { set := "ghost", values := [] }],
    .setTileSize 50]

/-- Settings with a report and a topology of the mesh. -/
def edgeSettings : Settings where
  execution := .threads
  partitioning := .metis
  debug := some .low
  coordinates := some { set := "cells", values := [], dimension := .two }
  meshMaps := [{ name := "c2g", source := "cells", target := "ghost", values := [] },
    { name := "c2e", source := "cells", target := "edges", values := [0, 1, 2] }]
  prefetch := 2

theorem decode_generate_edges :
    ∃ e, generate ((Chain.new "airfoil").afterAll edgeCalls) edgeSettings = .ok e ∧
      ∃ program, programOf ((Chain.new "airfoil").afterAll edgeCalls) edgeSettings = .ok program ∧
        decode program e.arguments =
          some (.of ((Chain.new "airfoil").afterAll edgeCalls) edgeSettings e.seed) := by
  have hcheck : check ((Chain.new "airfoil").afterAll edgeCalls) edgeSettings = .ok 1 := by cbv
  have hcalls : ∀ call ∈ edgeCalls, call.Built := by
    simp [edgeCalls, Chain.Call.Built, Descriptor.Built]
  obtain ⟨e, he, -⟩ := generate_of_check hcheck
  obtain ⟨program, hp, -, -, hd⟩ := decode_generate hcalls he
  exact ⟨e, he, program, hp, hd⟩

end SparseTiling.Inspector
