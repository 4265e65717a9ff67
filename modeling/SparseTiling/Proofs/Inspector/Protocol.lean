import SparseTiling.Proofs.Code.Occurrences

/-!
# The calls of an inspector

The tiling library expects its calls in an order: sets, maps and descriptors first, then an
inspector, its loops, the inspection and the executor; what is released is not used again.
Emitted inspectors keep to it, whatever the chain and the settings.

* `protocol`: what an inspector does, in its order.
* `occurrencesAll_body`: the emitted statements do that.
* `functions_protocol`: the functions that are called, as a word.
* `FollowsProtocol`: the order, and how often objects are made, filled and released.
* `generate_follows_protocol`: generated inspectors follow the protocol.
-/

namespace SparseTiling.Inspector

open Code

variable {c : Chain} {s : Settings}

/-! ## The protocol -/

/-- The call of a library function, in the declaration of a variable or alone. -/
def calling (var : Option String) (function : String) (args : List Expr) : Occurrence :=
  ⟨[], var, .call (.ident function) args⟩

def creating (list : String) : Occurrence := ⟨[], some list, .create "map_list"⟩

def inserting (list item : String) : Occurrence :=
  ⟨[], none, .call (.arrow (.ident list) "insert") [.ident item]⟩

def deleting (list : String) : Occurrence := ⟨[], none, .delete (.ident list)⟩

/-- Only the first process reports. -/
def onFirst : Context := .when (.equals (.ident rankParam) (.int 0))

/-- A call that only the first process makes. -/
def reporting (function : String) (args : List Expr) : Occurrence :=
  ⟨[onFirst], none, .call (.ident function) args⟩

def setCalls (c : Chain) : List Occurrence :=
  c.sets.zipIdx.map fun x =>
    calling (some x.1.name) "set"
      [.tableCell setsTable x.2 "name", .tableCell setsTable x.2 "core",
        .tableCell setsTable x.2 "exec", .tableCell setsTable x.2 "nonexec",
        .nameOrNull x.1.superset]

def mapCalls (c : Chain) : List Occurrence :=
  c.maps.zipIdx.map fun m =>
    calling (some m.1.name) "map"
      [.tableCell mapsTable m.2 "name", .ident m.1.source, .ident m.1.target,
        .tableCell mapsTable m.2 "map", .tableCell mapsTable m.2 "size"]

/-- The descriptors of each loop stand in the declaration of its list. -/
def descCalls (c : Chain) : List Occurrence :=
  c.loops.zipIdx.flatMap fun l =>
    l.1.descriptors.map fun d =>
      calling (some (l.1.descriptorsName l.2)) "desc" [.ident d.map.text, .ident d.mode.keyword]

/-- The list of mesh maps is made, then the maps, which then are inserted. -/
def meshCalls (c : Chain) (s : Settings) : List Occurrence :=
  creating meshMapList ::
    ((meshMapRows c s).map fun m =>
      calling (some (meshMapVar m.1)) "map"
        [.tableCell meshMapsTable m.2 "name", .ident m.1.source, .ident m.1.target,
          .tableCell meshMapsTable m.2 "map", .tableCell meshMapsTable m.2 "size"]) ++
    (meshMapRows c s).map fun m => inserting meshMapList (meshMapVar m.1)

/-- The list of partitionings is made, then their parts and maps, which then are inserted. -/
def partCalls (c : Chain) : List Occurrence :=
  creating partitioningList ::
    ((partitioningRows c).flatMap fun p =>
      [calling (some p.1.partsName) "set"
          [.tableCell partitioningsTable p.2 "name", .tableCell partitioningsTable p.2 "nparts",
            .int 0, .int 0, .null],
        calling (some p.1.mapName) "map"
          [.str p.1.mapName, .ident p.1.set, .ident p.1.partsName,
            .tableCell partitioningsTable p.2 "part", .tableCell partitioningsTable p.2 "size"]]) ++
    (partitioningRows c).map fun p => inserting partitioningList p.1.mapName

def initCall (c : Chain) (s : Settings) : Occurrence :=
  calling (some inspVar) "insp_init"
    [.ident "avgTileSize", .ident (Mode.symbol s.execution), .ident (Mode.symbol s.coloring),
      .nameOrNull (listVar meshMapList (meshMapStmts c s)),
      .nameOrNull (listVar partitioningList (partitioningStmts c)), .ident "prefetchHalo",
      .ident "ignoreWAR", .str c.name]

def loopCalls (c : Chain) : List Occurrence :=
  c.loops.zipIdx.map fun l =>
    calling none "insp_add_parloop"
      [.ident inspVar, .str (l.1.runtimeName l.2), .ident l.1.set,
        .addressOf (.ident (l.1.descriptorsName l.2))]

def runCall : Occurrence := calling none "insp_run" [.ident inspVar, .ident "seedTilePoint"]

/-- A report is printed, and with coordinates the mesh is shown after it. -/
def reportCalls (s : Settings) : List Occurrence :=
  match s.debug with
  | none => []
  | some level =>
    reporting "insp_print" [.ident inspVar, .ident (Mode.symbol level)] ::
      match s.coordinates with
      | none => []
      | some field =>
        [reporting "generate_vtk"
          [.ident inspVar, .ident (Mode.symbol level), .ident field.set,
            .cast "double*" (.tableCell coordsTable 0 "data"), .ident field.constant,
            .ident rankParam]]

/-- The executor is made before the rest is released, and it is what is returned. -/
def finishCalls : List Occurrence :=
  [calling (some execVar) "exec_init" [.ident inspVar], calling none "insp_free" [.ident inspVar],
    deleting meshMapList, deleting partitioningList,
    ⟨[], none, .giveBack (.ident execVar)⟩]

/-- What an inspector does before anything is released. -/
def preparation (c : Chain) (s : Settings) : List Occurrence :=
  setCalls c ++ mapCalls c ++ descCalls c ++ meshCalls c s ++ partCalls c ++ [initCall c s] ++
    loopCalls c ++ [runCall] ++ reportCalls s

/-- **What an inspector does, in its order.** -/
def protocol (c : Chain) (s : Settings) : List Occurrence := preparation c s ++ finishCalls

/-! ## What the statements do -/

theorem occurrences_setDecls : (setDecls c).flatMap (Stmt.occurrences []) = setCalls c :=
  occurrences_map _ fun x => by simp [Library.set, calling]

theorem occurrences_mapDecls : (mapDecls c).flatMap (Stmt.occurrences []) = mapCalls c :=
  occurrences_map _ fun m => by simp [Library.map, calling]

theorem occurrences_descDecls : (descDecls c).flatMap (Stmt.occurrences []) = descCalls c := by
  have hdesc (l : Loop) : List.flatMap Expr.actions
      [.list (l.descriptors.map fun d => Library.desc d.map d.mode)] =
        l.descriptors.map fun d =>
          .call (.ident "desc") [.ident d.map.text, .ident d.mode.keyword] := by
    simp [List.flatMap_map, Library.desc, ← List.map_eq_flatMap]
  rw [descDecls, descCalls, List.flatMap_map]
  simp only [occurrences_construct, hdesc, List.map_map]
  rfl

theorem occurrences_newList (list : String) : (newList list).occurrences [] = [creating list] := by
  simp [newList, creating]

theorem occurrences_inserts {α : Type} (list : String) (item : α → String) (xs : List α) :
    (xs.map fun x => insert list (item x)).flatMap (Stmt.occurrences []) =
      xs.map fun x => inserting list (item x) :=
  occurrences_map xs fun x => by simp [insert, inserting]

theorem occurrences_meshSection :
    (meshSection c s).flatMap (Stmt.occurrences []) = meshCalls c s := by
  rw [meshSection, meshMapStmts, meshCalls, List.flatMap_cons, List.flatMap_cons,
    List.flatMap_append, occurrences_newList, occurrences_inserts, occurrences_map]
  · rfl
  · intro m
    simp [Library.map, calling]

theorem occurrences_partSection :
    (partSection c).flatMap (Stmt.occurrences []) = partCalls c := by
  have hparts (p : Partitioning) (i : Nat) :
      (partitioningDecls p i).flatMap (Stmt.occurrences []) =
        [calling (some p.partsName) "set"
            [.tableCell partitioningsTable i "name", .tableCell partitioningsTable i "nparts",
              .int 0, .int 0, .null],
          calling (some p.mapName) "map"
            [.str p.mapName, .ident p.set, .ident p.partsName,
              .tableCell partitioningsTable i "part", .tableCell partitioningsTable i "size"]] := by
    simp [partitioningDecls, Library.partSet, Library.partMap, calling]
  rw [partSection, partitioningStmts, partCalls, List.flatMap_cons, List.flatMap_cons,
    List.flatMap_append, occurrences_newList, occurrences_inserts, List.flatMap_assoc]
  simp only [hparts]
  rfl

theorem occurrences_initStmts :
    (initStmts c s).flatMap (Stmt.occurrences []) = [initCall c s] := by
  simp [initStmts, initCall, Library.inspInit, calling]

theorem occurrences_loopStmts : (loopStmts c).flatMap (Stmt.occurrences []) = loopCalls c :=
  occurrences_map _ fun l => by simp [Library.inspAddParloop, calling]

theorem occurrences_runStmts (seed : Nat) :
    (runStmts seed).flatMap (Stmt.occurrences []) = [runCall] := by
  simp [runStmts, runCall, Library.inspRun, calling]

theorem occurrences_reportStmts :
    (reportStmts s).flatMap (Stmt.occurrences []) = reportCalls s := by
  unfold reportStmts reportCalls
  cases s.debug with
  | none => rfl
  | some level =>
    cases s.coordinates with
    | none => simp [Library.inspPrint, reporting, onFirst, Expr.equals]
    | some f => simp [Library.inspPrint, Library.generateVtk, reporting, onFirst, Expr.equals]

theorem occurrences_finishStmts :
    finishStmts.flatMap (Stmt.occurrences []) = finishCalls := by
  simp [finishStmts, finishCalls, Library.execInit, Library.inspFree, calling, deleting]

/-- The statements of an inspector up to the first that releases something. -/
theorem exists_opening (seed : Nat) : ∃ opening, body c s seed = opening ++ finishStmts ∧
    opening.flatMap (Stmt.occurrences []) = preparation c s := by
  have hchain : (chainSection c).flatMap (Stmt.occurrences []) =
      setCalls c ++ mapCalls c ++ descCalls c := by
    rw [chainSection, List.flatMap_append, List.flatMap_append, List.flatMap_cons,
      occurrences_comment, List.nil_append, occurrences_setDecls, occurrences_mapDecls,
      occurrences_descDecls]
  refine ⟨chainSection c ++ .blank :: (meshSection c s ++ .blank :: (partSection c ++ .blank ::
    (initStmts c s ++ .blank :: (loopStmts c ++ .blank :: (runStmts seed ++ .blank ::
      reportStmts s))))), by simp [body_eq], ?_⟩
  simp only [List.flatMap_append, List.flatMap_cons, occurrences_blank, List.nil_append, hchain,
    occurrences_meshSection, occurrences_partSection, occurrences_initStmts, occurrences_loopStmts,
    occurrences_runStmts, occurrences_reportStmts, preparation, List.append_assoc]

/-- **The emitted statements do what the protocol says,** in its order. -/
theorem occurrencesAll_body (seed : Nat) :
    Stmt.occurrencesAll [] (body c s seed) = protocol c s := by
  obtain ⟨opening, hbody, hopening⟩ := exists_opening (c := c) (s := s) seed
  rw [Stmt.occurrencesAll_eq, hbody, List.flatMap_append, hopening, occurrences_finishStmts,
    protocol]

/-! ## Counting -/

/-- The functions that a report calls. -/
def reportFunctions (s : Settings) : List String :=
  match s.debug, s.coordinates with
  | none, _ => []
  | some _, none => ["insp_print"]
  | some _, some _ => ["insp_print", "generate_vtk"]

/-- The functions that are called for sets, maps and descriptors. -/
def declaringFunctions (c : Chain) (s : Settings) : List String :=
  List.replicate c.sets.length "set" ++ List.replicate c.maps.length "map" ++
    (c.loops.flatMap fun l => List.replicate l.descriptors.length "desc") ++
    List.replicate (meshMapRows c s).length "map" ++
    (partitioningRows c).flatMap fun _ => ["set", "map"]

/-- The functions that are called for an inspection, from the new inspector on. -/
def inspectingFunctions (c : Chain) (s : Settings) : List String :=
  ["insp_init"] ++ List.replicate c.loops.length "insp_add_parloop" ++ ["insp_run"] ++
    reportFunctions s ++ ["exec_init", "insp_free"]

theorem functions_calls {α : Type} (xs : List α) (var : α → Option String) (function : String)
    (args : α → List Expr) :
    (xs.map fun x => calling (var x) function (args x)).filterMap Occurrence.function? =
      List.replicate xs.length function := by
  induction xs with
  | nil => rfl
  | cons x xs ih => simpa [calling, List.replicate_succ] using ih

theorem functions_inserts {α : Type} (xs : List α) (list : String) (item : α → String) :
    (xs.map fun x => inserting list (item x)).filterMap Occurrence.function? = [] := by
  simp [inserting]

theorem functions_descCalls : (descCalls c).filterMap Occurrence.function? =
    c.loops.flatMap fun l => List.replicate l.descriptors.length "desc" := by
  have hfirst := congrArg (List.flatMap fun l => List.replicate l.descriptors.length "desc")
    (List.zipIdx_map_fst 0 c.loops)
  rw [List.flatMap_map] at hfirst
  rw [descCalls, List.filterMap_flatMap]
  simpa only [functions_calls] using hfirst

theorem functions_reportCalls :
    (reportCalls s).filterMap Occurrence.function? = reportFunctions s := by
  unfold reportCalls reportFunctions
  cases s.debug <;> cases s.coordinates <;> rfl

/-- The functions of the library that an inspector calls, as a word. -/
theorem functions_protocol : (protocol c s).filterMap Occurrence.function? =
    declaringFunctions c s ++ inspectingFunctions c s := by
  have hsets : (setCalls c).filterMap Occurrence.function? =
      List.replicate c.sets.length "set" := by
    rw [setCalls, functions_calls, List.length_zipIdx]
  have hmaps : (mapCalls c).filterMap Occurrence.function? =
      List.replicate c.maps.length "map" := by
    rw [mapCalls, functions_calls, List.length_zipIdx]
  have hmesh : (meshCalls c s).filterMap Occurrence.function? =
      List.replicate (meshMapRows c s).length "map" := by
    rw [meshCalls, List.filterMap_append, List.filterMap_cons_none rfl, functions_calls,
      functions_inserts, List.append_nil]
  have hparts : (partCalls c).filterMap Occurrence.function? =
      (partitioningRows c).flatMap fun _ => ["set", "map"] := by
    rw [partCalls, List.filterMap_append, List.filterMap_cons_none rfl, List.filterMap_flatMap,
      functions_inserts, List.append_nil]
    rfl
  have hloops : (loopCalls c).filterMap Occurrence.function? =
      List.replicate c.loops.length "insp_add_parloop" := by
    rw [loopCalls, functions_calls, List.length_zipIdx]
  simp only [protocol, preparation, List.filterMap_append, hsets, hmaps, functions_descCalls, hmesh,
    hparts, hloops, functions_reportCalls, declaringFunctions, inspectingFunctions,
    List.append_assoc]
  rfl

/-- Functions other than those for sets, maps and descriptors are called for the inspection
only. -/
theorem count_functions {f : String} (hf : f ∉ ["set", "map", "desc"]) :
    ((protocol c s).filterMap Occurrence.function?).count f =
      (inspectingFunctions c s).count f := by
  have hnone : (declaringFunctions c s).count f = 0 := by
    rw [List.count_eq_zero]
    intro hmem
    simp only [declaringFunctions, List.mem_append, List.mem_replicate, List.mem_flatMap,
      List.mem_cons, List.not_mem_nil, or_false] at hmem hf
    tauto
  rw [functions_protocol, List.count_append, hnone, Nat.zero_add]

theorem count_reportFunctions {f : String} (hf : f ∉ ["insp_print", "generate_vtk"]) :
    (reportFunctions s).count f = 0 := by
  have hreport : reportFunctions s ⊆ ["insp_print", "generate_vtk"] := by
    unfold reportFunctions
    split <;> simp
  exact List.count_eq_zero.2 fun hmem => hf (hreport hmem)

theorem count_once {f : String} (hf : f ∈ ["insp_init", "insp_run", "exec_init", "insp_free"]) :
    (inspectingFunctions c s).count f = 1 := by
  simp only [List.mem_cons, List.not_mem_nil, or_false] at hf
  rcases hf with rfl | rfl | rfl | rfl <;>
    simp [inspectingFunctions, List.count_replicate, count_reportFunctions]

/-! ## Preparing and releasing -/

/-- The functions that are called before anything is released, reports apart. -/
def preparing : List String :=
  ["set", "map", "desc", "insp_init", "insp_add_parloop", "insp_run"]

/-- What may happen before anything is released. -/
inductive Prepares : Occurrence → Prop
  | calls (var : Option String) {function : String} (args : List Expr)
    (h : function ∈ preparing) : Prepares (calling var function args)
  | creates (list : String) : Prepares (creating list)
  | inserts (list item : String) : Prepares (inserting list item)
  | reports {function : String} (args : List Expr)
    (h : function ∈ ["insp_print", "generate_vtk"]) : Prepares (reporting function args)

theorem prepares_preparation : ∀ o ∈ preparation c s, Prepares o := by
  have hreport : ∀ o ∈ reportCalls s, Prepares o := by
    unfold reportCalls
    cases s.debug with
    | none => simp
    | some level =>
      cases s.coordinates with
      | none => simpa using .reports _ (by decide)
      | some f => simpa using ⟨.reports _ (by decide), .reports _ (by decide)⟩
  simp only [preparation, setCalls, mapCalls, descCalls, meshCalls, partCalls, initCall, loopCalls,
    runCall, List.forall_mem_append, List.forall_mem_cons, List.forall_mem_map,
    List.forall_mem_flatMap]
  simpa (disch := decide) [Prepares.calls, Prepares.creates, Prepares.inserts] using hreport

theorem Prepares.released {o : Occurrence} (h : Prepares o) : o.released = [] := by
  have hkept : ∀ f ∈ preparing ++ ["insp_print", "generate_vtk"], isRelease f = false := by decide
  cases h with
  | calls var args h => simp [calling, hkept _ (List.mem_append_left _ h)]
  | creates list => rfl
  | inserts list item => rfl
  | reports args h => simp [reporting, hkept _ (List.mem_append_right _ h)]

theorem Prepares.result? {o : Occurrence} (h : Prepares o) : o.result? = none := by
  cases h <;> rfl

/-- Only reports depend on anything. -/
theorem Prepares.context {o : Occurrence} (h : Prepares o) : o.context =
    if o.function? ∈ [some "insp_print", some "generate_vtk"] then [onFirst] else [] := by
  cases h with
  | @calls var function args h =>
    have hother : ∀ f ∈ preparing, f ∉ ["insp_print", "generate_vtk"] := by decide
    have hne := hother function h
    rw [List.mem_cons, List.mem_singleton] at hne
    simp [calling, hne]
  | creates list => rfl
  | inserts list item => rfl
  | reports args h =>
    simp only [List.mem_cons, List.not_mem_nil, or_false] at h
    simp [reporting, h]

theorem released_finishStmts :
    finishStmts.flatMap Stmt.released = [inspVar, meshMapList, partitioningList] := by
  have hfree : isRelease "insp_free" = true := by decide
  have hinit : isRelease "exec_init" = false := by decide
  simp [finishStmts, Stmt.released, Library.execInit, Library.inspFree, hfree, hinit]

/-! ## Making and filling lists -/

/-- An occurrence that makes no list and fills only some. -/
def Fills (lists : List String) (o : Occurrence) : Prop :=
  o.created? = none ∧ ∀ list, o.filled? = some list → list ∈ lists

theorem fills_calling {lists : List String} (var : Option String) (function : String)
    (args : List Expr) : Fills lists (calling var function args) := ⟨rfl, by simp [calling]⟩

theorem fills_inserting {lists : List String} {list : String} (item : String) (h : list ∈ lists) :
    Fills lists (inserting list item) := ⟨rfl, by simpa [inserting] using h⟩

theorem fills_reportCalls {lists : List String} : ∀ o ∈ reportCalls s, Fills lists o := by
  unfold reportCalls
  cases s.debug <;> cases s.coordinates <;> simp [Fills, reporting]

theorem fills_finishCalls {lists : List String} : ∀ o ∈ finishCalls, Fills lists o := by
  simp [finishCalls, Fills, calling, deleting]

/-- The protocol, cut where its lists are made. -/
theorem protocol_lists : ∃ first mesh rest, protocol c s =
      first ++ creating meshMapList :: (mesh ++ creating partitioningList :: rest) ∧
    (∀ o ∈ first, Fills [] o) ∧ (∀ o ∈ mesh, Fills [meshMapList] o) ∧
    ∀ o ∈ rest, Fills [meshMapList, partitioningList] o := by
  refine ⟨setCalls c ++ mapCalls c ++ descCalls c, (meshCalls c s).tail,
    (partCalls c).tail ++ [initCall c s] ++ loopCalls c ++ [runCall] ++ reportCalls s ++
      finishCalls, ?_, ?_, ?_, ?_⟩
  · simp [protocol, preparation, meshCalls, partCalls]
  · simp only [setCalls, mapCalls, descCalls, List.forall_mem_append, List.forall_mem_map,
      List.forall_mem_flatMap]
    exact ⟨⟨fun _ _ => fills_calling _ _ _, fun _ _ => fills_calling _ _ _⟩,
      fun _ _ _ _ => fills_calling _ _ _⟩
  · simp only [meshCalls, List.cons_append, List.tail_cons, List.forall_mem_append,
      List.forall_mem_map]
    exact ⟨fun _ _ => fills_calling _ _ _, fun _ _ => fills_inserting _ (by simp)⟩
  · simp only [partCalls, initCall, loopCalls, runCall, List.cons_append, List.tail_cons,
      List.forall_mem_append, List.forall_mem_map, List.forall_mem_flatMap, List.forall_mem_cons]
    simpa [fills_calling, fills_inserting] using ⟨fills_reportCalls, fills_finishCalls⟩

theorem filterMap_created {lists : List String} {os : List Occurrence}
    (h : ∀ o ∈ os, Fills lists o) : os.filterMap Occurrence.created? = [] :=
  List.filterMap_eq_nil_iff.2 fun o ho => (h o ho).1

theorem created_protocol :
    (protocol c s).filterMap Occurrence.created? = [meshMapList, partitioningList] := by
  obtain ⟨first, mesh, rest, hcut, hfirst, hmesh, hrest⟩ := protocol_lists (c := c) (s := s)
  rw [hcut]
  simp [filterMap_created hfirst, filterMap_created hmesh, filterMap_created hrest, creating]

theorem successive_fills {lists : List String} {os : List Occurrence}
    (h : ∀ o ∈ os, Fills lists o) : Successive (fun o : Occurrence => o.created?.toList)
      (fun made o => ∀ list, o.filled? = some list → list ∈ made) lists os :=
  successive_of_forall (fun _ _ hkept list hlist => List.mem_append_left _ (hkept list hlist))
    fun o ho => (h o ho).2

/-- A list is made before anything is inserted into it. -/
theorem successive_protocol : Successive (fun o : Occurrence => o.created?.toList)
    (fun made o => ∀ list, o.filled? = some list → list ∈ made) [] (protocol c s) := by
  obtain ⟨first, mesh, rest, hcut, hfirst, hmesh, hrest⟩ := protocol_lists (c := c) (s := s)
  have hnone {lists : List String} {os : List Occurrence} (h : ∀ o ∈ os, Fills lists o) :
      os.flatMap (fun o => o.created?.toList) = [] :=
    List.flatMap_eq_nil_iff.2 fun o ho => by rw [(h o ho).1, Option.toList_none]
  rw [hcut]
  refine successive_append.2 ⟨successive_fills hfirst, by simp [creating], ?_⟩
  rw [hnone hfirst]
  refine successive_append.2 ⟨successive_fills hmesh, by simp [creating], ?_⟩
  rw [hnone hmesh]
  exact successive_fills hrest

/-! ## Following the protocol -/

/-- A statement mentions a variable if it uses or declares it. -/
def Mentions (st : Stmt) (n : String) : Prop := n ∈ st.idents ∨ n ∈ st.declared.map (·.2)

/-- The statements of an inspector keep to the protocol of the library. -/
structure FollowsProtocol (c : Chain) (s : Settings) (body : List Stmt) : Prop where
  order : Stmt.occurrencesAll [] body = protocol c s
  once : ∀ f ∈ ["insp_init", "insp_run", "exec_init", "insp_free"],
    ((Stmt.occurrencesAll [] body).filterMap Occurrence.function?).count f = 1
  perLoop : ((Stmt.occurrencesAll [] body).filterMap Occurrence.function?).count
    "insp_add_parloop" = c.loops.length
  /-- A report is printed at most once, and only then the mesh is shown, at most once. -/
  reports :
    ((Stmt.occurrencesAll [] body).filterMap Occurrence.function?).count "generate_vtk" ≤
        ((Stmt.occurrencesAll [] body).filterMap Occurrence.function?).count "insp_print" ∧
      ((Stmt.occurrencesAll [] body).filterMap Occurrence.function?).count "insp_print" ≤ 1
  /-- Reports are for the first process, and all else is unconditional. -/
  contexts : ∀ o ∈ Stmt.occurrencesAll [] body, o.context =
    if o.function? ∈ [some "insp_print", some "generate_vtk"] then [onFirst] else []
  created : (Stmt.occurrencesAll [] body).filterMap Occurrence.created? =
    [meshMapList, partitioningList]
  /-- Nothing is inserted into a list that has not been created. -/
  filled : Successive (fun o => o.created?.toList)
    (fun made o => ∀ list, o.filled? = some list → list ∈ made) [] (Stmt.occurrencesAll [] body)
  released : body.flatMap Stmt.released = [inspVar, meshMapList, partitioningList]
  /-- Nothing is mentioned once it has been released. -/
  unused : Successive Stmt.released (fun gone st => ∀ n ∈ gone, ¬ Mentions st n) [] body
  /-- The executor is returned at the end and nowhere else, and it is not released. -/
  returned : (Stmt.occurrencesAll [] body).filterMap Occurrence.result? = [.ident execVar] ∧
    body.getLast? = some (.returnValue (.ident execVar)) ∧
    execVar ∉ body.flatMap Stmt.released

/-- What is released at the end is not mentioned after that. -/
theorem unused_finishStmts :
    Successive Stmt.released (fun gone st => ∀ n ∈ gone, ¬ Mentions st n) [] finishStmts := by
  have hfree : isRelease "insp_free" = true := by decide
  have hinit : isRelease "exec_init" = false := by decide
  have hdelete (e : Expr) : (Stmt.delete e).declared = [] := rfl
  have hreturn (e : Expr) : (Stmt.returnValue e).declared = [] := rfl
  simp [finishStmts, Successive, Stmt.released, Mentions, Library.execInit, Library.inspFree, hfree,
    hinit, hdelete, hreturn, inspVar, execVar, meshMapList, partitioningList]

theorem followsProtocol_body (seed : Nat) : FollowsProtocol c s (body c s seed) := by
  obtain ⟨opening, hbody, hopening⟩ := exists_opening (c := c) (s := s) seed
  have hprepares : ∀ o ∈ opening.flatMap (Stmt.occurrences []), Prepares o :=
    hopening ▸ prepares_preparation
  have hkept : ∀ st ∈ opening, st.released = [] := by
    intro st hst
    refine List.flatMap_eq_nil_iff.2 fun o ho => (hprepares o ?_).released
    exact List.mem_flatMap.2 ⟨st, hst, ho⟩
  have hreleased : (body c s seed).flatMap Stmt.released =
      [inspVar, meshMapList, partitioningList] := by
    rw [hbody, List.flatMap_append, List.flatMap_eq_nil_iff.2 hkept, released_finishStmts,
      List.nil_append]
  constructor
  case order => exact occurrencesAll_body seed
  case once =>
    intro f hf
    rw [occurrencesAll_body, count_functions, count_once hf]
    simp only [List.mem_cons, List.not_mem_nil, or_false] at hf
    rcases hf with rfl | rfl | rfl | rfl <;> decide
  case perLoop =>
    rw [occurrencesAll_body, count_functions (by decide)]
    simp [inspectingFunctions, count_reportFunctions]
  case reports =>
    rw [occurrencesAll_body, count_functions (by decide), count_functions (by decide)]
    unfold inspectingFunctions reportFunctions
    cases s.debug <;> cases s.coordinates <;> simp [List.count_replicate]
  case contexts =>
    rw [occurrencesAll_body, protocol, List.forall_mem_append]
    refine ⟨fun o ho => (prepares_preparation o ho).context, ?_⟩
    simp [finishCalls, calling, deleting]
  case created => rw [occurrencesAll_body, created_protocol]
  case filled =>
    rw [occurrencesAll_body]
    exact successive_protocol
  case released => exact hreleased
  case unused =>
    have hnone : opening.flatMap Stmt.released = [] := List.flatMap_eq_nil_iff.2 hkept
    rw [hbody, successive_append, hnone]
    refine ⟨?_, unused_finishStmts⟩
    rw [successive_iff]
    -- before the end nothing has been released at all
    intro before st after hsplit n hn
    rw [hsplit, List.flatMap_append, List.append_eq_nil_iff] at hnone
    rw [hnone.1] at hn
    exact absurd hn List.not_mem_nil
  case returned =>
    refine ⟨?_, ?_, ?_⟩
    · have hnone : (preparation c s).filterMap Occurrence.result? = [] :=
        List.filterMap_eq_nil_iff.2 fun o ho => (prepares_preparation o ho).result?
      rw [occurrencesAll_body, protocol, List.filterMap_append, hnone]
      rfl
    · rw [hbody]
      simp [finishStmts]
    · rw [hreleased]
      decide

/-- **Generated inspectors follow the protocol of the library.** For every chain that calls
can build and all settings, the statements of a generated inspector call the library in its
order, and what is released is never mentioned again. -/
theorem generate_follows_protocol (name : String) (calls : List Chain.Call) (s : Settings)
    (e : Emission) (h : generate ((Chain.new name).afterAll calls) s = .ok e) :
    ∃ program body, programOf ((Chain.new name).afterAll calls) s = .ok program ∧
      e.source = render program ∧ bodyOf program = some body ∧
      FollowsProtocol ((Chain.new name).afterAll calls) s body := by
  obtain ⟨seed, hcheck, he⟩ := bind_eq_ok h
  obtain rfl := Except.ok.inj he
  exact ⟨program _ s seed, _, programOf_of_check hcheck, rfl, bodyOf_program seed,
    followsProtocol_body seed⟩

theorem generate_follows_protocol_edges :
    ∃ e, generate ((Chain.new "airfoil").afterAll edgeCalls) edgeSettings = .ok e ∧
      ∃ program body,
        programOf ((Chain.new "airfoil").afterAll edgeCalls) edgeSettings = .ok program ∧
        e.source = render program ∧ bodyOf program = some body ∧
        FollowsProtocol ((Chain.new "airfoil").afterAll edgeCalls) edgeSettings body := by
  have hcheck : check ((Chain.new "airfoil").afterAll edgeCalls) edgeSettings = .ok 1 := by cbv
  obtain ⟨e, he, -⟩ := generate_of_check hcheck
  exact ⟨e, he, generate_follows_protocol "airfoil" edgeCalls edgeSettings e he⟩

end SparseTiling.Inspector
