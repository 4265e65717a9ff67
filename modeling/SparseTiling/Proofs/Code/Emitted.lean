import SparseTiling.Executor
import SparseTiling.Proofs.Code.Readback
import SparseTiling.Proofs.Inspector.Lossless

/-!
# Emitted expressions

Every expression in an inspector or executor is plain, apart from the double zero, as long
as the names of sets, maps and loops are identifiers. So different expressions in emitted
code never have the same text.

* `expressions`: all expressions of a program, with their parts.
* `Fine`: a statement has plain expressions only, the double zero apart.
* `Inspector.fine_program`, `Executor.fine_program`: so have the emitted programs.
* `renderAt_unambiguous`: the text of an expression determines it.
-/

namespace SparseTiling.Code

/-! ## The expressions of a program -/

mutual

/-- An expression and all expressions inside it. -/
def Expr.parts : Expr → List Expr
  | e@(.call callee args) => e :: (callee.parts ++ Expr.partsAll args)
  | e@(.field base _) => e :: base.parts
  | e@(.arrow base _) => e :: base.parts
  | e@(.index base position) => e :: (base.parts ++ position.parts)
  | e@(.addressOf operand) => e :: operand.parts
  | e@(.not operand) => e :: operand.parts
  | e@(.cast _ operand) => e :: operand.parts
  | e@(.binary _ left right) => e :: (left.parts ++ right.parts)
  | e@(.list items) => e :: Expr.partsAll items
  | e => [e]

/-- The parts of several expressions. -/
def Expr.partsAll : List Expr → List Expr
  | [] => []
  | e :: rest => e.parts ++ Expr.partsAll rest

end

mutual

/-- The expressions of a statement and of the statements inside it. -/
def Stmt.exprs : Stmt → List Expr
  | .decl _ _ init => init.toList
  | .construct _ _ args => args
  | .assign target value => [target, value]
  | .addAssign target value => [target, value]
  | .expr e => [e]
  | .ifThen cond body => cond :: Stmt.exprsAll body
  | .forRange _ bound body => bound :: Stmt.exprsAll body
  | .scope body => Stmt.exprsAll body
  | .returnValue e => [e]
  | .delete e => [e]
  | .function _ body => Stmt.exprsAll body
  | _ => []

/-- The expressions of several statements. -/
def Stmt.exprsAll : List Stmt → List Expr
  | [] => []
  | s :: rest => s.exprs ++ Stmt.exprsAll rest

end

/-- All expressions of a program, with all their parts. -/
def expressions (stmts : List Stmt) : List Expr := Expr.partsAll (Stmt.exprsAll stmts)

variable {A : Alphabet} {e : Expr}

theorem Expr.partsAll_eq (items : List Expr) : partsAll items = items.flatMap parts := by
  induction items with
  | nil => rfl
  | cons e rest ih => rw [partsAll, ih, List.flatMap_cons]

theorem Stmt.exprsAll_eq (stmts : List Stmt) : exprsAll stmts = stmts.flatMap exprs := by
  induction stmts with
  | nil => rfl
  | cons s rest ih => rw [exprsAll, ih, List.flatMap_cons]

/-- The parts of a plain expression are plain. -/
theorem Plain.parts {level : Level} (h : Plain A level e) : ∀ x ∈ e.parts, Plain A .full x := by
  induction h with
  | ident h => simp [Expr.parts, h]
  | call hf ha ihf iha =>
    simp only [Expr.parts, Expr.partsAll_eq, List.forall_mem_cons, List.forall_mem_append,
      List.forall_mem_flatMap]
    exact ⟨.suffixed (.call hf ha), ihf, iha⟩
  | field h hname ih => simpa [Expr.parts, h, hname] using ih
  | arrow h hname ih => simpa [Expr.parts, h, hname] using ih
  | index h hp ih ihp =>
    simp only [Expr.parts, List.forall_mem_cons, List.forall_mem_append]
    exact ⟨.suffixed (.index h hp), ih, ihp⟩
  | suffixed _ ih => exact ih
  | int | bool | str | null => simp [Expr.parts]
  | new h => simp [Expr.parts, h]
  | list h ih =>
    simp only [Expr.parts, Expr.partsAll_eq, List.forall_mem_cons, List.forall_mem_flatMap]
    exact ⟨.list h, ih⟩
  | addressOf h ih => simpa [Expr.parts, h] using ih
  | not h ih => simpa [Expr.parts, h] using ih
  | cast htype h ih => simpa [Expr.parts, h, htype] using ih
  | binary op hl hr ihl ihr =>
    simp only [Expr.parts, List.forall_mem_cons, List.forall_mem_append]
    exact ⟨.binary op hl hr, ihl, ihr⟩

/-! ## Shapes of emitted expressions -/

section Shapes

variable {level : Level} {name table : String} {args : List Expr}

@[simp] theorem plain_callName :
    Plain A level (.callName name args) ↔ A.IsIdent name ∧ ∀ a ∈ args, Plain A .full a := by
  simp [Expr.callName]

@[simp] theorem plain_method :
    Plain A level (.method e name args) ↔
      (Plain A .suffixed e ∧ A.IsMember name) ∧ ∀ a ∈ args, Plain A .full a := by
  simp [Expr.method]

@[simp] theorem plain_tableCell (row : Nat) :
    Plain A level (.tableCell table row name) ↔ A.IsIdent table ∧ A.IsMember name := by
  simp [Expr.tableCell]

@[simp] theorem plain_nameOrNull {var : Option String} :
    Plain A .full (.nameOrNull var) ↔ ∀ n, var = some n → A.IsIdent n := by
  cases var <;> simp [Expr.nameOrNull]

theorem plain_stream (h : ∀ a ∈ args, Plain A .full a) (hne : args ≠ []) :
    Plain A .full (.stream args) := by
  obtain ⟨first, rest, rfl⟩ := List.exists_cons_of_ne_nil hne
  rw [List.forall_mem_cons] at h
  obtain ⟨hfirst, hrest⟩ := h
  rw [Expr.stream]
  induction rest generalizing first with
  | nil => exact hfirst
  | cons a rest ih =>
    rw [List.forall_mem_cons] at hrest
    exact ih _ (by simp) (.binary .shl hfirst hrest.1) hrest.2

end Shapes

/-! ## Fine statements -/

/-- A plain expression, or the double zero. -/
def Tame (A : Alphabet) (e : Expr) : Prop := e = .float .zero ∨ Plain A .full e

/-- All expressions in a statement are plain, or the double zero. -/
def Fine (A : Alphabet) (s : Stmt) : Prop := ∀ e ∈ s.exprs, Tame A e

/-- The one place that looks into a statement; the rules below are its cases. -/
theorem fine_iff {s : Stmt} (es : List Expr) (h : s.exprs = es) :
    Fine A s ↔ ∀ e ∈ es, Tame A e := by
  rw [Fine, h]

theorem fine_silent {s : Stmt} (h : s.exprs = []) : Fine A s :=
  (fine_iff [] h).2 (by simp)

theorem forall_exprsAll {body : List Stmt} :
    (∀ e ∈ Stmt.exprsAll body, Tame A e) ↔ ∀ s ∈ body, Fine A s := by
  rw [Stmt.exprsAll_eq, List.forall_mem_flatMap]
  rfl

section Statements

variable {type name : String} {target value : Expr} {args : List Expr} {body : List Stmt}

@[simp] theorem fine_blank : Fine A .blank := fine_silent rfl

@[simp] theorem fine_comment (text : String) : Fine A (.comment text) := fine_silent rfl

@[simp] theorem fine_pragma (text : String) : Fine A (.pragma text) := fine_silent rfl

@[simp] theorem fine_continueLoop : Fine A .continueLoop := fine_silent rfl

@[simp] theorem fine_structType {fields : List (String × String)} :
    Fine A (.structType name fields) := fine_silent rfl

@[simp] theorem fine_declareBare : Fine A (.declareBare type name) := fine_silent rfl

@[simp] theorem fine_declare : Fine A (.declare type name e) ↔ Tame A e :=
  (fine_iff [e] rfl).trans List.forall_mem_singleton

@[simp] theorem fine_construct : Fine A (.construct type name args) ↔ ∀ a ∈ args, Tame A a :=
  fine_iff args rfl

@[simp] theorem fine_assign : Fine A (.assign target value) ↔ Tame A target ∧ Tame A value :=
  (fine_iff [target, value] rfl).trans (by simp)

@[simp] theorem fine_addAssign : Fine A (.addAssign target value) ↔ Tame A target ∧ Tame A value :=
  (fine_iff [target, value] rfl).trans (by simp)

@[simp] theorem fine_expr : Fine A (.expr e) ↔ Tame A e :=
  (fine_iff [e] rfl).trans List.forall_mem_singleton

@[simp] theorem fine_returnValue : Fine A (.returnValue e) ↔ Tame A e :=
  (fine_iff [e] rfl).trans List.forall_mem_singleton

@[simp] theorem fine_delete : Fine A (.delete e) ↔ Tame A e :=
  (fine_iff [e] rfl).trans List.forall_mem_singleton

@[simp] theorem fine_ifThen : Fine A (.ifThen e body) ↔ Tame A e ∧ ∀ s ∈ body, Fine A s :=
  (fine_iff (e :: Stmt.exprsAll body) rfl).trans (by rw [List.forall_mem_cons, forall_exprsAll])

@[simp] theorem fine_forRange {var : String} :
    Fine A (.forRange var e body) ↔ Tame A e ∧ ∀ s ∈ body, Fine A s :=
  (fine_iff (e :: Stmt.exprsAll body) rfl).trans (by rw [List.forall_mem_cons, forall_exprsAll])

@[simp] theorem fine_scope : Fine A (.scope body) ↔ ∀ s ∈ body, Fine A s :=
  (fine_iff (Stmt.exprsAll body) rfl).trans forall_exprsAll

@[simp] theorem fine_function {head : Signature} :
    Fine A (.function head body) ↔ ∀ s ∈ body, Fine A s :=
  (fine_iff (Stmt.exprsAll body) rfl).trans forall_exprsAll

end Statements

theorem tame_of_fine {stmts : List Stmt} (h : ∀ s ∈ stmts, Fine A s) :
    ∀ e ∈ expressions stmts, Tame A e := by
  simp only [expressions, Expr.partsAll_eq, Stmt.exprsAll_eq, List.forall_mem_flatMap]
  intro s hs e he x hx
  -- the double zero has no parts but itself
  rcases h s hs e he with rfl | hplain
  · exact .inl (by simpa [Expr.parts] using hx)
  · exact .inr (hplain.parts x hx)

end SparseTiling.Code

namespace SparseTiling.Inspector

open Code Alphabet

variable {A : Alphabet} {c : Chain} {s : Settings}

/-- The names of sets, maps and loops are identifiers. -/
structure Identifiers (A : Alphabet) (c : Chain) (s : Settings) : Prop where
  sets : ∀ n ∈ c.sets.map (·.name), A.IsIdent n
  maps : ∀ n ∈ c.maps.map (·.name), A.IsIdent n
  loops : ∀ n ∈ c.loops.map (·.name), A.IsIdent n
  meshMaps : ∀ n ∈ s.meshMaps.map (·.name), A.IsIdent n

theorem Identifiers.of_hasSet (h : Identifiers A c s) {name : String}
    (hset : c.hasSet name = true) : A.IsIdent name := by
  simp only [Chain.hasSet, List.any_eq_true, decide_eq_true_eq] at hset
  obtain ⟨x, hx, rfl⟩ := hset
  exact h.sets _ (List.mem_map_of_mem hx)

theorem fine_setDecls (hc : c.Sound) (hn : Identifiers A c s) : ∀ st ∈ setDecls c, Fine A st := by
  simp only [setDecls, List.forall_mem_map]
  rintro ⟨x, i⟩ hx
  have hsuper : ∀ n, x.superset = some n → A.IsIdent n := by
    intro n hsome
    obtain ⟨j, t, -, ht, rfl⟩ := hc.nested i x n (List.mk_mem_zipIdx_iff_getElem?.1 hx) hsome
    exact hn.sets _ (List.mem_map_of_mem (List.mem_of_getElem? ht))
  simpa (disch := decide) [Tame, Library.set, isIdent_of_latin, isMember_of_latin] using .inr hsuper

theorem fine_map (type name table : String) (row : Nat) {source target : String}
    (htable : A.IsIdent table) (hsource : A.IsIdent source) (htarget : A.IsIdent target) :
    Fine A (.declare type name (Library.map table row source target)) := by
  simp (disch := decide) [Tame, Library.map, htable, hsource, htarget, isIdent_of_latin,
    isMember_of_latin]

theorem fine_mapDecls (hr : c.Resolved) (hn : Identifiers A c s) :
    ∀ st ∈ mapDecls c, Fine A st := by
  simp only [mapDecls, List.forall_mem_map]
  rintro ⟨m, i⟩ hm
  have hends := hr.maps m (List.mem_of_getElem? (List.mk_mem_zipIdx_iff_getElem?.1 hm))
  exact fine_map _ _ _ i (isIdent_of_latin (by decide)) (hn.of_hasSet hends.1)
    (hn.of_hasSet hends.2)

theorem isIdent_keyword (mode : AccessMode) : A.IsIdent mode.keyword := by
  cases mode <;> exact isIdent_of_latin (by decide)

theorem fine_descDecls (hr : c.Resolved) (hn : Identifiers A c s) :
    ∀ st ∈ descDecls c, Fine A st := by
  simp only [descDecls, List.forall_mem_map]
  rintro ⟨l, i⟩ hl
  have hmem := List.mem_of_getElem? (List.mk_mem_zipIdx_iff_getElem?.1 hl)
  have hnames : ∀ d ∈ l.descriptors, A.IsIdent d.map.text := by
    intro d hd
    cases hmap : d.map with
    | direct => exact isIdent_of_latin (by decide)
    | map n => exact hn.maps n (hr.accesses l hmem d hd n hmap)
  simpa (disch := decide) [Tame, Library.desc, isIdent_keyword, isIdent_of_latin] using hnames

theorem fine_insert {list item : String} (hlist : A.IsIdent list) (hitem : A.IsIdent item) :
    Fine A (insert list item) := by
  simp (disch := decide) [insert, Tame, hlist, hitem, isMember_of_latin]

theorem fine_meshMapStmts (hn : Identifiers A c s) : ∀ st ∈ meshMapStmts c s, Fine A st := by
  simp only [meshMapStmts, List.forall_mem_append, List.forall_mem_map]
  constructor <;> rintro ⟨m, i⟩ hm <;> obtain ⟨hget, hsource, htarget⟩ := mem_meshMapRows hm
  · exact fine_map _ _ _ i (isIdent_of_latin (by decide)) (hn.of_hasSet hsource)
      (hn.of_hasSet htarget)
  · have hname := hn.meshMaps _ (List.mem_map_of_mem (List.mem_of_getElem? hget))
    have hstart : A.IsIdent "mm_" := isIdent_of_latin (by decide)
    exact fine_insert (isIdent_of_latin (by decide))
      (hstart.append hname.spelled (by simp))

theorem fine_partitioningStmts (hn : Identifiers A c s) :
    ∀ st ∈ partitioningStmts c, Fine A st := by
  have hnames {p : Partitioning} {i : Nat} (hp : (p, i) ∈ partitioningRows c) :
      A.IsIdent p.set ∧ A.IsIdent p.mapName ∧ A.IsIdent p.partsName := by
    have hset := hn.of_hasSet (mem_partitioningRows hp).2
    exact ⟨hset, hset.append (spells_of_latin rfl) (by simp),
      hset.append (spells_of_latin rfl) (by simp)⟩
  simp only [partitioningStmts, List.forall_mem_append, List.forall_mem_map,
    List.forall_mem_flatMap]
  constructor <;> rintro ⟨p, i⟩ hp <;> obtain ⟨hset, hmap, hparts⟩ := hnames hp
  · simp (disch := decide) [partitioningDecls, Tame, Library.partSet, Library.partMap, hset, hparts,
      isIdent_of_latin, isMember_of_latin]
  · exact fine_insert (isIdent_of_latin (by decide)) hmap

theorem fine_initStmts : ∀ st ∈ initStmts c s, Fine A st := by
  have hexecution : A.IsIdent (Mode.symbol s.execution) := by
    cases s.execution <;> exact isIdent_of_latin (by decide)
  have hcoloring : A.IsIdent (Mode.symbol s.coloring) := by
    cases s.coloring <;> exact isIdent_of_latin (by decide)
  have hinit : Plain A .full (Library.inspInit "avgTileSize" s.execution s.coloring
      (listVar meshMapList (meshMapStmts c s)) (listVar partitioningList (partitioningStmts c))
      "prefetchHalo" "ignoreWAR" c.name) := by
    have hlist {name : String} (hname : A.IsIdent name) (stmts : List Stmt) :
        ∀ var, listVar name stmts = some var → A.IsIdent var := by
      intro var h
      unfold listVar at h
      split at h
      · cases h
      · exact Option.some.inj h ▸ hname
    simpa (disch := decide) [Library.inspInit, hexecution, hcoloring, isIdent_of_latin] using
      ⟨hlist (isIdent_of_latin (by decide)) _, hlist (isIdent_of_latin (by decide)) _⟩
  simp (disch := decide) [initStmts, Tame, hinit, isIdent_of_latin]

theorem fine_loopStmts (hr : c.Resolved) (hn : Identifiers A c s) :
    ∀ st ∈ loopStmts c, Fine A st := by
  simp only [loopStmts, List.forall_mem_map]
  rintro ⟨l, i⟩ hl
  have hmem := List.mem_of_getElem? (List.mk_mem_zipIdx_iff_getElem?.1 hl)
  have hset := hn.of_hasSet (hr.loops l hmem)
  have hdesc : A.IsIdent (l.descriptorsName i) :=
    ((hn.loops _ (List.mem_map_of_mem hmem)).append (spells_of_latin rfl) (by simp)).append
      (spells_toString i) (by simp)
  simp (disch := decide) [Tame, Library.inspAddParloop, hset, hdesc, isIdent_of_latin]

theorem fine_runStmts (seed : Nat) : ∀ st ∈ runStmts seed, Fine A st := by
  simp (disch := decide) [runStmts, Tame, Library.inspRun, isIdent_of_latin]

theorem fine_reportStmts (hn : Identifiers A c s)
    (hcoord : ∀ f, s.coordinates = some f → c.hasSet f.set = true) :
    ∀ st ∈ reportStmts s, Fine A st := by
  unfold reportStmts
  cases s.debug with
  | none => simp
  | some level =>
    have hlevel : A.IsIdent (Mode.symbol level) := by
      cases level <;> exact isIdent_of_latin (by decide)
    -- a report is one block; with coordinates it also shows the mesh
    have hcond : Tame A (.equals (.ident rankParam) (.int 0)) := by
      simp (disch := decide) [Tame, Expr.equals, isIdent_of_latin]
    have hprint : Fine A (.expr (Library.inspPrint inspVar level)) := by
      simp (disch := decide) [Tame, Library.inspPrint, hlevel, isIdent_of_latin]
    cases hfield : s.coordinates with
    | none => simp [hcond, hprint]
    | some f =>
      have hset := hn.of_hasSet (hcoord f hfield)
      have hdim : A.IsIdent f.constant := by
        unfold CoordinateField.constant
        cases f.dimension <;> exact isIdent_of_latin (by decide)
      have htype : A.IsType "double*" := ⟨"double", 1, isIdent_of_latin (by decide), rfl⟩
      have hshow : Fine A (.expr (Library.generateVtk inspVar level f.set coordsTable f.constant
          rankParam)) := by
        simp (disch := decide) [Tame, Library.generateVtk, hlevel, hset, hdim, htype,
          isIdent_of_latin, isMember_of_latin]
      simp [hcond, hprint, hshow]

theorem fine_finishStmts : ∀ st ∈ finishStmts, Fine A st := by
  simp (disch := decide) [finishStmts, Tame, Library.execInit, Library.inspFree, isIdent_of_latin]

theorem fine_body (hc : c.Sound) (hn : Identifiers A c s) {seed : Nat}
    (h : check c s = .ok seed) : ∀ st ∈ body c s seed, Fine A st := by
  obtain ⟨hr, hcoord, -⟩ := check_eq_ok h
  have hnew (name : String) : Fine A (newList name) := by
    simp (disch := decide) [newList, Tame, isIdent_of_latin]
  simp only [body, List.forall_mem_append, List.forall_mem_cons, fine_comment, fine_blank, hnew,
    List.not_mem_nil, IsEmpty.forall_iff, implies_true, true_and, and_true, and_assoc]
  exact ⟨fine_setDecls hc hn, fine_mapDecls hr hn, fine_descDecls hr hn, fine_meshMapStmts hn,
    fine_partitioningStmts hn, fine_initStmts, fine_loopStmts hr hn, fine_runStmts seed,
    fine_reportStmts hn hcoord, fine_finishStmts⟩

/-- **The expressions of an inspector are plain.** -/
theorem fine_program (hc : c.Sound) (hn : Identifiers A c s) {seed : Nat}
    (h : check c s = .ok seed) : ∀ st ∈ program c s seed, Fine A st := by
  have hfunction : Fine A (.function (signature c) (body c s seed)) :=
    fine_function.2 (fine_body hc hn h)
  have htables : ∀ st ∈ tableTypes, Fine A st := by simp [tableTypes]
  simp only [program, List.forall_mem_append, List.forall_mem_cons, List.forall_mem_map]
  exact ⟨⟨fun _ _ => fine_silent rfl, fine_silent rfl, htables⟩, fine_silent rfl, fine_silent rfl,
    hfunction, by simp⟩

end SparseTiling.Inspector

namespace SparseTiling.Executor

open Code Alphabet

variable {A : Alphabet} {s : Settings}

theorem fine_prologue (b : Binding) : ∀ st ∈ prologue s b, Fine A st := by
  have hstart : ∀ st ∈ (if s.timing then [Stmt.assign (.ident startVar) Library.timeStamp] else []),
      Fine A st := by
    split <;> simp (disch := decide) [Tame, Library.timeStamp, isIdent_of_latin]
  simp only [prologue, List.forall_mem_append, List.forall_mem_cons, List.forall_mem_map]
  refine ⟨⟨?_, ?_⟩, hstart⟩
  · simp (disch := decide) [Tame, Library.tileGetLocalMap, isIdent_of_latin]
  · simp (disch := decide) [Tame, Library.tileGetIterations, Library.tileLoopSize, isIdent_of_latin]

theorem fine_epilogue (position : Nat) : ∀ st ∈ epilogue s position, Fine A st := by
  unfold epilogue accumulators
  cases s.timing with
  | false => simp
  | true =>
    cases s.execution.isShared <;>
      simp (disch := decide) [Tame, Library.timeStamp, element, Expr.minus, isIdent_of_latin,
        isMember_of_latin]

theorem fine_kernelStmts (kernel : Binding → String) (b : Binding) :
    ∀ st ∈ kernelStmts s kernel b, Fine A st := by
  simp only [kernelStmts, List.forall_mem_append, List.forall_mem_cons]
  exact ⟨⟨fine_silent rfl, fine_prologue b⟩, fine_silent rfl, fine_epilogue b.position⟩

theorem fine_tileBody (bs : List Binding) (kernel : Binding → String) :
    ∀ st ∈ tileBody s bs kernel, Fine A st := by
  simp only [tileBody, List.forall_mem_append, List.forall_mem_flatMap]
  refine ⟨⟨?_, ?_⟩, fun b _ => fine_kernelStmts kernel b⟩
  · simp (disch := decide) [Tame, Library.execTileAt, isIdent_of_latin]
  · split <;> simp

theorem fine_mergeLoop (count : Nat) : Fine A (mergeLoop count) := by
  simp (disch := decide) [mergeLoop, Tame, element, isIdent_of_latin, isMember_of_latin]

theorem fine_colorBody (count : Nat) {tiles : Stmt} (h : Fine A tiles) :
    ∀ st ∈ colorBody s count tiles, Fine A st := by
  have hiters : Fine A (.declare "int" (sized workerItersVar count) (.list [.int 0])) := by
    simp [Tame]
  unfold colorBody timedParallel
  cases s.execution.isShared <;> cases s.timing <;>
    simp [hiters, h, fine_mergeLoop]

theorem fine_colorLoop (bs : List Binding) (kernel : Binding → String) :
    Fine A (colorLoop s bs kernel) := by
  have hident {name : String} (h : latin.IsIdent name) : Tame A (.ident name) :=
    .inr (by simpa using isIdent_of_latin h)
  rw [colorLoop, fine_forRange, List.forall_mem_cons]
  have htiles : Fine A (.forRange "j" (.ident tileCount) (tileBody s bs kernel)) :=
    fine_forRange.2 ⟨hident (by decide), fine_tileBody bs kernel⟩
  refine ⟨hident (by decide), ?_, fine_colorBody _ htiles⟩
  simp (disch := decide) [Tame, Library.execTilesPerColor, isIdent_of_latin]

theorem fine_timingInit (count : Nat) : ∀ st ∈ timingInit count, Fine A st := by
  simp (disch := decide) [timingInit, Tame, Expr.equals, isIdent_of_latin]

theorem fine_timingReport (chain : String) (count : Nat) :
    ∀ st ∈ timingReport chain count, Fine A st := by
  have htype : A.IsType "int" := ⟨"int", 0, isIdent_of_latin (by decide), rfl⟩
  have hpath : Plain A .full (reportPath chain) := plain_stream (by
    simp (disch := decide) [isIdent_of_latin]) (by simp)
  have hline : Plain A .full reportLine := plain_stream (by
    simp (disch := decide) [element, isIdent_of_latin]) (by simp)
  simp (disch := decide) [timingReport, Tame, Expr.equals, element, hpath, hline, htype,
    isIdent_of_latin, isMember_of_latin]

/-- **The expressions of an executor are plain,** whatever the names. -/
theorem fine_program (chain : String) (bs : List Binding) (kernel : Binding → String) :
    ∀ st ∈ program chain s bs kernel, Fine A st := by
  have htype : A.IsType "executor_t*" :=
    ⟨"executor_t", 1, isIdent_of_latin (by decide), rfl⟩
  have hopening : ∀ st ∈
      [Stmt.declare "executor_t*" execVar (.cast "executor_t*" (.ident execParam)),
        .declare "int" colorCount (Library.execNumColors execVar)], Fine A st := by
    simp (disch := decide) [Tame, htype, Library.execNumColors, isIdent_of_latin]
  simp only [program, List.forall_mem_append]
  refine ⟨⟨?_, ?_⟩, ?_⟩
  · split
    · exact List.forall_mem_append.2 ⟨fine_timingInit _, by simp⟩
    · simp
  · simpa [fine_colorLoop] using hopening
  · split
    · exact List.forall_mem_cons.2 ⟨fine_blank, fine_timingReport chain _⟩
    · simp

end SparseTiling.Executor

namespace SparseTiling.Code

open Inspector (edgeCalls edgeSettings)

/-! ## Unambiguous texts -/

theorem Plain.joinLines_renderAt {A : Alphabet} {e : Expr} (h : Plain A .full e) (width : Nat) :
    joinLines (e.renderAt width) = String.ofList e.flat := by
  rw [Expr.renderAt, Doc.joinLines_render h.tidy, Expr.flat_doc]

/-- **The text of an expression determines it.** Two plain expressions that are printed
alike, at whatever widths and apart from where lines are broken, are the same. Whenever the
names of sets, maps and loops are identifiers, all expressions of an emitted inspector or
executor are plain, the double zero apart. -/
theorem renderAt_unambiguous (A : Alphabet) :
    (∀ e₁ e₂ : Expr, Plain A .full e₁ → Plain A .full e₂ → ∀ w₁ w₂ : Nat,
      joinLines (e₁.renderAt w₁) = joinLines (e₂.renderAt w₂) → e₁ = e₂) ∧
    ∀ (name : String) (calls : List Chain.Call) (s : Settings),
      Inspector.Identifiers A ((Chain.new name).afterAll calls) s →
      (∀ stmts, Inspector.programOf ((Chain.new name).afterAll calls) s = .ok stmts →
        ∀ e ∈ expressions stmts, e = .float .zero ∨ Plain A .full e) ∧
      ∀ bs kernel, Executor.check ((Chain.new name).afterAll calls) = .ok bs →
        ∀ e ∈ expressions (Executor.program ((Chain.new name).afterAll calls).name s bs kernel),
          e = .float .zero ∨ Plain A .full e := by
  refine ⟨fun e₁ e₂ h₁ h₂ w₁ w₂ htext => ?_, fun name calls s hnames => ⟨?_, ?_⟩⟩
  · rw [h₁.joinLines_renderAt, h₂.joinLines_renderAt] at htext
    exact h₁.eq_of_flat h₂ (String.ofList_injective htext)
  · intro stmts h
    obtain ⟨seed, hcheck, hstmts⟩ := bind_eq_ok h
    obtain rfl := Except.ok.inj hstmts
    exact tame_of_fine (Inspector.fine_program (Chain.sound_afterAll name calls) hnames hcheck)
  · intro bs kernel _
    exact tame_of_fine (Executor.fine_program _ bs kernel)

theorem identifiers_edges :
    Inspector.Identifiers .latin ((Chain.new "airfoil").afterAll edgeCalls) edgeSettings := by
  have hsets : ((Chain.new "airfoil").afterAll edgeCalls).sets.map (·.name) =
      ["edges", "cells", "border"] := by cbv
  have hmaps : ((Chain.new "airfoil").afterAll edgeCalls).maps.map (·.name) = ["edge2cell"] := by
    cbv
  have hloops : ((Chain.new "airfoil").afterAll edgeCalls).loops.map (·.name) =
      ["flux", "flux"] := by cbv
  exact ⟨by rw [hsets]; decide, by rw [hmaps]; decide, by rw [hloops]; decide, by decide⟩

theorem renderAt_unambiguous_edges :
    (∀ w₁ w₂ : Nat,
      joinLines ((Expr.minus (.minus (.ident "a") (.ident "b")) (.ident "c")).renderAt w₁) ≠
        joinLines ((Expr.minus (.ident "a") (.minus (.ident "b") (.ident "c"))).renderAt w₂)) ∧
    ∃ stmts,
      Inspector.programOf ((Chain.new "airfoil").afterAll edgeCalls) edgeSettings = .ok stmts ∧
      ∀ e ∈ expressions stmts, e = .float .zero ∨ Plain .latin .full e := by
  have hcheck :
      Inspector.check ((Chain.new "airfoil").afterAll edgeCalls) edgeSettings = .ok 1 := by cbv
  have hstmts := Inspector.programOf_of_check hcheck
  have hplain (name : String) (h : Alphabet.latin.IsIdent name) :
      Plain .latin .full (.ident name) := plain_ident.2 h
  have ha := hplain "a" (by decide)
  have hb := hplain "b" (by decide)
  have hc := hplain "c" (by decide)
  refine ⟨fun w₁ w₂ htext => ?_, _, hstmts,
    ((renderAt_unambiguous .latin).2 "airfoil" _ _ identifiers_edges).1 _ hstmts⟩
  have hsame := (renderAt_unambiguous .latin).1 _ _ (.binary .sub (.binary .sub ha hb) hc)
    (.binary .sub ha (.binary .sub hb hc)) w₁ w₂ htext
  simp at hsame

end SparseTiling.Code
