import SparseTiling.Proofs.Code.Scope

/-!
# Inspectors are closed

An inspector is one row of statements. Sets stand after their supersets, and everything else
is checked to refer to sets and maps of the chain. So no name is used before it is declared,
and an object that is handed to the tiling library is a variable declared earlier with the
type that the library takes there.

* `Library.slots`: where library functions take objects, and of which types.
* `ClosedIn`: a statement uses known variables only, each in its place.
* `successive_setDecls`, `closed_mapDecls`, `closed_descDecls`, `closed_loopStmts`: the chain.
* `successive_meshMapStmts`, `successive_partitioningStmts`: what is handed on besides.
* `successive_body`: the statements of an inspector, one after another.
-/

namespace SparseTiling.Library

open Code (Expr)

/-! ## Names of the library -/

/-- The functions of the library that an inspector calls. -/
def inspection : List String :=
  ["set", "map", "desc", "insp_init", "insp_add_parloop", "insp_run", "insp_print",
    "generate_vtk", "exec_init", "insp_free"]

/-- The constants of the library. -/
def constants : List String :=
  [directKeyword, "READ", "WRITE", "RW", "INC", "SEQUENTIAL", "OMP", "ONLY_MPI", "OMP_MPI",
    "COL_DEFAULT", "COL_RAND", "COL_MINCOLS", "MINIMAL", "VERY_LOW", "LOW", "MEDIUM", "HIGH",
    "DIM1", "DIM2", "DIM3"]

/-- A place in a call that takes a variable of a type, or one other expression. -/
structure Slot where
  position : Nat
  type : String
  instead : Option Expr := none

/-- The places where the functions of the library take objects. -/
def slots : List (String × Slot) :=
  [("set", { position := 4, type := "set_t*", instead := some .null }),
    ("map", { position := 1, type := "set_t*" }), ("map", { position := 2, type := "set_t*" }),
    ("desc", { position := 0, type := "map_t*", instead := some (.ident directKeyword) }),
    ("insp_init", { position := 3, type := "map_list*", instead := some .null }),
    ("insp_init", { position := 4, type := "map_list*", instead := some .null }),
    ("insp_add_parloop", { position := 0, type := "inspector_t*" }),
    ("insp_add_parloop", { position := 2, type := "set_t*" }),
    ("insp_run", { position := 0, type := "inspector_t*" }),
    ("insp_print", { position := 0, type := "inspector_t*" }),
    ("generate_vtk", { position := 0, type := "inspector_t*" }),
    ("generate_vtk", { position := 2, type := "set_t*" }),
    ("exec_init", { position := 0, type := "inspector_t*" }),
    ("insp_free", { position := 0, type := "inspector_t*" })]

/-- A place in a call is filled by a known variable of its type, or by the expression that
may stand there instead. -/
def Slot.Filled (known : List (String × String)) (args : List Expr) (slot : Slot) : Prop :=
  ∃ e, args[slot.position]? = some e ∧
    (slot.instead = some e ∨ ∃ name, e = .ident name ∧ (slot.type, name) ∈ known)

theorem Slot.Filled.mono {known more : List (String × String)} {args : List Expr} {slot : Slot}
    (h : slot.Filled known args) (hmore : known ⊆ more) : slot.Filled more args := by
  obtain ⟨e, he, hfilled⟩ := h
  refine ⟨e, he, hfilled.imp_right ?_⟩
  rintro ⟨name, hname, hmem⟩
  exact ⟨name, hname, hmore hmem⟩

theorem mem_constants_keyword (mode : AccessMode) : mode.keyword ∈ constants := by
  cases mode <;> simp [AccessMode.keyword, constants]

theorem mem_constants_execution (mode : ExecutionMode) : Mode.symbol mode ∈ constants := by
  cases mode <;> simp [Mode.symbol, constants]

theorem mem_constants_coloring (mode : ColoringMode) : Mode.symbol mode ∈ constants := by
  cases mode <;> simp [Mode.symbol, constants]

theorem mem_constants_debug (mode : DebugMode) : Mode.symbol mode ∈ constants := by
  cases mode <;> simp [Mode.symbol, constants]

theorem mem_constants_dimension (f : CoordinateField) : f.constant ∈ constants := by
  unfold CoordinateField.constant
  cases f.dimension <;> decide

end SparseTiling.Library

namespace SparseTiling.Inspector

open Code
open Library (Slot)

variable {c : Chain} {s : Settings} {known more : List (String × String)}

/-! ## Statements of an inspector -/

/-- The names that an inspector uses without declaring them: its parameters, and the
functions and constants of the library. -/
def ambient (c : Chain) : List String :=
  (params c).map (·.name) ++ Library.inspection ++ Library.constants

/-- A name that an inspector does not declare, or a variable that it has declared. -/
def Usable (c : Chain) (known : List (String × String)) (n : String) : Prop :=
  n ∈ ambient c ∨ n ∈ known.map (·.2)

/-- A statement uses names that are known before it, and hands objects of the right types
to the library. -/
structure ClosedIn (c : Chain) (known : List (String × String)) (st : Stmt) : Prop where
  names : ∀ n ∈ st.idents, Usable c known n
  objects : ∀ call ∈ st.calls, ∀ slot, (call.1, slot) ∈ Library.slots → slot.Filled known call.2

theorem ClosedIn.mono {st : Stmt} (h : ClosedIn c known st) (hmore : known ⊆ more) :
    ClosedIn c more st where
  names n hn := (h.names n hn).imp_right fun hmem => List.map_subset _ hmore hmem
  objects call hcall slot hslot := (h.objects call hcall slot hslot).mono hmore

theorem successive_closed {stmts : List Stmt} (h : ∀ st ∈ stmts, ClosedIn c known st) :
    Successive Stmt.declared (ClosedIn c) known stmts :=
  successive_of_forall (fun _ _ hst => hst.mono (List.subset_append_left _ _)) h

section Usable

variable {n : String}

theorem usable_param (h : n ∈ tableParams) : Usable c known n := by
  rw [← params_names (c := c)] at h
  exact .inl (List.mem_append_left _ (List.mem_append_left _ h))

theorem usable_function (h : n ∈ Library.inspection) : Usable c known n :=
  .inl (List.mem_append_left _ (List.mem_append_right _ h))

theorem usable_constant (h : n ∈ Library.constants) : Usable c known n :=
  .inl (List.mem_append_right _ h)

theorem usable_variable (type : String) (h : (type, n) ∈ known) : Usable c known n :=
  .inr (List.mem_map_of_mem h)

end Usable

/-- Where there may be a variable, there is none or it is known. -/
theorem nameOrNull_known {type : String} {var : Option String}
    (h : ∀ n, var = some n → (type, n) ∈ known) : Expr.null = .nameOrNull var ∨
      ∃ n, Expr.nameOrNull var = .ident n ∧ (type, n) ∈ known := by
  cases var with
  | none => exact .inl rfl
  | some n => exact .inr ⟨n, rfl, h n rfl⟩

theorem closed_blank : ClosedIn c known .blank := ⟨by simp, by simp⟩

theorem closed_comment (text : String) : ClosedIn c known (.comment text) := ⟨by simp, by simp⟩

theorem closed_ifThen {cond : Expr} {body : List Stmt}
    (hnames : ∀ n ∈ cond.idents, Usable c known n) (hcalls : cond.calls = [])
    (hbody : ∀ st ∈ body, ClosedIn c known st) : ClosedIn c known (.ifThen cond body) := by
  constructor
  · intro n hn
    rw [Stmt.idents, collect_ifThen, List.mem_append, List.mem_flatMap] at hn
    rcases hn with hn | ⟨st, hst, hn⟩
    · exact hnames n hn
    · exact (hbody st hst).names n hn
  · intro call hcall
    rw [Stmt.calls, collect_ifThen, List.mem_append, List.mem_flatMap] at hcall
    have hcond : call ∉ cond.calls := by simp only [hcalls, List.not_mem_nil, not_false_eq_true]
    obtain ⟨st, hst, hcall⟩ := hcall.resolve_left hcond
    exact (hbody st hst).objects call hcall

/-! ## Sets, maps and descriptors -/

/-- A set is closed once its superset is declared. -/
theorem closed_set (type var : String) (row : Nat) {superset : Option String}
    (h : ∀ n, superset = some n → ("set_t*", n) ∈ known) :
    ClosedIn c known (.declare type var (Library.set setsTable row superset)) := by
  constructor
  · simpa (disch := decide) [Library.set, usable_function, usable_param] using
      fun n hn => usable_variable _ (h n hn)
  · simpa [Library.set, Library.slots, Slot.Filled] using nameOrNull_known h

/-- The sets of a chain are declared after their supersets. -/
theorem successive_setDecls (hc : c.Sound) :
    Successive Stmt.declared (ClosedIn c) known (setDecls c) := by
  rw [successive_iff]
  intro before st after hsplit
  have hat {j : Nat} {t : MeshSet} (ht : c.sets[j]? = some t) : (setDecls c)[j]? =
      some (.declare "set_t*" t.name (Library.set setsTable j t.superset)) := by
    simp [setDecls, ht]
  have hst : (setDecls c)[before.length]? = some st := by simp [hsplit]
  obtain ⟨x, hx⟩ : ∃ x, c.sets[before.length]? = some x := by
    have hlt := (List.getElem?_eq_some_iff.1 hst).1
    exact ⟨_, List.getElem?_eq_getElem (by simpa [setDecls] using hlt)⟩
  obtain rfl := Option.some.inj (hst.symm.trans (hat hx))
  refine closed_set _ _ _ fun n hn => ?_
  -- the superset is declared at a smaller position, so before this set
  obtain ⟨j, t, hj, ht, rfl⟩ := hc.nested _ x n hx hn
  have hbefore : before[j]? = (setDecls c)[j]? := by rw [hsplit, List.getElem?_append_left hj]
  rw [hat ht] at hbefore
  refine List.mem_append_right _ (List.mem_flatMap.2 ⟨_, List.mem_of_getElem? hbefore, ?_⟩)
  exact List.mem_singleton_self _

theorem mem_declarations_zipIdx {α : Type} {xs : List α} {stmt : α × Nat → Stmt} {x : α}
    {d : String × String} (hx : x ∈ xs) (h : ∀ i, d ∈ (stmt (x, i)).declared) :
    d ∈ declarations (xs.zipIdx.map stmt) := by
  obtain ⟨i, hi⟩ := List.mem_iff_getElem?.1 hx
  exact List.mem_flatMap.2
    ⟨_, List.mem_map_of_mem (List.mk_mem_zipIdx_iff_getElem?.2 hi), h i⟩

theorem declared_set {n : String} (h : c.hasSet n = true) :
    ("set_t*", n) ∈ declarations (setDecls c) := by
  simp only [Chain.hasSet, List.any_eq_true, decide_eq_true_eq] at h
  obtain ⟨x, hx, rfl⟩ := h
  exact mem_declarations_zipIdx hx fun _ => List.mem_singleton_self _

theorem declared_map {n : String} (h : n ∈ c.maps.map (·.name)) :
    ("map_t*", n) ∈ declarations (mapDecls c) := by
  obtain ⟨m, hm, rfl⟩ := List.mem_map.1 h
  exact mem_declarations_zipIdx hm fun _ => List.mem_singleton_self _

/-- A map is closed once its ends are declared. -/
theorem closed_map (type var : String) {label : Expr} {table source target values size : String}
    {row : Nat} (hlabel : ∀ n ∈ label.idents, Usable c known n) (hcalls : label.calls = [])
    (htable : table ∈ tableParams) (hsource : ("set_t*", source) ∈ known)
    (htarget : ("set_t*", target) ∈ known) :
    ClosedIn c known (.declare type var (.callName "map"
      [label, .ident source, .ident target, .tableCell table row values,
        .tableCell table row size])) := by
  have hends := And.intro (usable_variable (c := c) _ hsource) (usable_variable (c := c) _ htarget)
  constructor
  · intro n hn
    simp only [collect_declare, idents_callName, List.flatMap_cons, List.flatMap_nil,
      List.mem_cons, List.mem_append] at hn
    rcases hn with rfl | hn | hn
    · exact usable_function (by decide)
    · exact hlabel n hn
    · revert n
      simp [usable_param htable, hends]
  · simp [hcalls, Library.slots, Slot.Filled, hsource, htarget]

/-- The name of a map in a table is closed. -/
theorem usable_tableCell {table name : String} {row : Nat} (h : table ∈ tableParams) :
    ∀ n ∈ (Expr.tableCell table row name).idents, Usable c known n := by
  simp [usable_param h]

section Phases

variable (hsets : ∀ n, c.hasSet n = true → ("set_t*", n) ∈ known)

include hsets in
theorem closed_mapDecls (hr : c.Resolved) : ∀ st ∈ mapDecls c, ClosedIn c known st := by
  simp only [mapDecls, List.forall_mem_map]
  rintro ⟨m, i⟩ hm
  have hends := hr.maps m (List.mem_of_getElem? (List.mk_mem_zipIdx_iff_getElem?.1 hm))
  exact closed_map _ _ (usable_tableCell (by decide)) (by simp) (by decide) (hsets _ hends.1)
    (hsets _ hends.2)

theorem closed_descDecls (hr : c.Resolved)
    (hmaps : ∀ n ∈ c.maps.map (·.name), ("map_t*", n) ∈ known) :
    ∀ st ∈ descDecls c, ClosedIn c known st := by
  simp only [descDecls, List.forall_mem_map]
  rintro ⟨l, i⟩ hl
  have hmem := List.mem_of_getElem? (List.mk_mem_zipIdx_iff_getElem?.1 hl)
  have hnames (d : Descriptor) (hd : d ∈ l.descriptors) :
      d.map.text = directKeyword ∨ ("map_t*", d.map.text) ∈ known := by
    cases hmap : d.map with
    | direct => exact .inl rfl
    | map n => exact .inr (hmaps n (hr.accesses l hmem d hd n hmap))
  constructor
  · intro n hn
    obtain ⟨d, hd, rfl | rfl | rfl⟩ : ∃ d ∈ l.descriptors,
        n = "desc" ∨ n = d.map.text ∨ n = d.mode.keyword := by
      simpa [Library.desc] using hn
    · exact usable_function (by decide)
    · rcases hnames d hd with hdirect | hknown
      · rw [hdirect]
        exact usable_constant (by decide)
      · exact usable_variable _ hknown
    · exact usable_constant (Library.mem_constants_keyword d.mode)
  · intro call hcall
    obtain ⟨d, hd, rfl⟩ : ∃ d ∈ l.descriptors,
        call = ("desc", [.ident d.map.text, .ident d.mode.keyword]) := by
      simpa [Library.desc] using hcall
    simpa [Library.slots, Slot.Filled, eq_comm] using hnames d hd

/-! ## Mesh maps and partitionings -/

theorem closed_newList (name : String) : ClosedIn c known (newList name) := by
  constructor <;> simp [newList]

theorem closed_insert {list item : String} (hlist : ("map_list*", list) ∈ known)
    (hitem : ("map_t*", item) ∈ known) : ClosedIn c known (insert list item) := by
  constructor
  · simp [insert, usable_variable _ hlist, usable_variable _ hitem]
  · simp [insert]

include hsets in
theorem successive_meshMapStmts (hlist : ("map_list*", meshMapList) ∈ known) :
    Successive Stmt.declared (ClosedIn c) known (meshMapStmts c s) := by
  refine successive_append.2 ⟨successive_closed ?_, successive_closed ?_⟩
  · simp only [List.forall_mem_map]
    rintro ⟨m, i⟩ hm
    obtain ⟨-, hsource, htarget⟩ := mem_meshMapRows hm
    exact closed_map _ _ (usable_tableCell (by decide)) (by simp) (by decide) (hsets _ hsource)
      (hsets _ htarget)
  · simp only [List.forall_mem_map]
    rintro ⟨m, i⟩ hm
    refine closed_insert (List.mem_append_left _ hlist) (List.mem_append_right _ ?_)
    exact List.mem_flatMap.2 ⟨_, List.mem_map_of_mem hm, List.mem_singleton_self _⟩

include hsets in
/-- The set of the parts stands right before the map to it. -/
theorem successive_partitioningDecls {p : Partitioning} (row : Nat) (hset : c.hasSet p.set = true) :
    Successive Stmt.declared (ClosedIn c) known (partitioningDecls p row) := by
  refine ⟨?_, ?_, trivial⟩
  · constructor
    · simp (disch := decide) [Library.partSet, usable_function, usable_param]
    · simp [Library.partSet, Library.slots, Slot.Filled]
  · exact closed_map _ _ (by simp) (by simp) (by decide) (by simp [hsets _ hset]) (by simp)

include hsets in
theorem successive_partitioningStmts (hlist : ("map_list*", partitioningList) ∈ known) :
    Successive Stmt.declared (ClosedIn c) known (partitioningStmts c) := by
  refine successive_append.2 ⟨successive_flatMap ?_, successive_closed ?_⟩
  · rintro ⟨p, i⟩ hp more
    refine successive_partitioningDecls (fun n hn => ?_) i (mem_partitioningRows hp).2
    exact List.mem_append_left _ (hsets n hn)
  · simp only [List.forall_mem_map]
    rintro ⟨p, i⟩ hp
    refine closed_insert (List.mem_append_left _ hlist) (List.mem_append_right _ ?_)
    refine List.mem_flatMap.2 ⟨.declare "map_t*" p.mapName
      (Library.partMap p.mapName p.set p.partsName partitioningsTable i), ?_, by simp⟩
    exact List.mem_flatMap.2 ⟨(p, i), hp, by simp [partitioningDecls]⟩

/-! ## Sections -/

theorem successive_section {first rest : List Stmt} :
    Successive Stmt.declared (ClosedIn c) known (first ++ .blank :: rest) ↔
      Successive Stmt.declared (ClosedIn c) known first ∧
        Successive Stmt.declared (ClosedIn c) (known ++ declarations first) rest := by
  have hblank : Stmt.blank.declared = [] := rfl
  simp [successive_append, Successive, closed_blank, hblank]

theorem successive_chainSection (hc : c.Sound) (hr : c.Resolved) :
    Successive Stmt.declared (ClosedIn c) known (chainSection c) := by
  have hcomment : (Stmt.comment "Sets, maps and descriptors").declared = [] := rfl
  unfold chainSection
  simp only [successive_append, Successive, hcomment, List.flatMap_append, List.flatMap_cons,
    List.nil_append, List.append_nil]
  refine ⟨⟨⟨closed_comment _, successive_setDecls hc⟩, successive_closed ?_⟩, successive_closed ?_⟩
  · exact closed_mapDecls (fun n hn => by simp [declared_set hn]) hr
  · exact closed_descDecls hr fun n hn =>
      List.mem_append_right _ (List.mem_append_right _ (declared_map hn))

include hsets in
theorem successive_meshSection : Successive Stmt.declared (ClosedIn c) known (meshSection c s) := by
  refine ⟨closed_comment _, closed_newList _, successive_meshMapStmts (fun n hn => ?_) ?_⟩
  · simp [hsets n hn]
  · simp [newList]

include hsets in
theorem successive_partSection : Successive Stmt.declared (ClosedIn c) known (partSection c) := by
  refine ⟨closed_comment _, closed_newList _, successive_partitioningStmts (fun n hn => ?_) ?_⟩
  · simp [hsets n hn]
  · simp [newList]

/-! ## The inspection -/

theorem successive_initStmts (hmesh : ("map_list*", meshMapList) ∈ known)
    (hparts : ("map_list*", partitioningList) ∈ known) :
    Successive Stmt.declared (ClosedIn c) known (initStmts c s) := by
  -- a list is handed over under its own name, if at all
  have hlist {name : String} (hname : ("map_list*", name) ∈ known) (stmts : List Stmt) :
      ∀ n, listVar name stmts = some n → ("map_list*", n) ∈ known := by
    intro n h
    unfold listVar at h
    split at h
    · cases h
    · exact Option.some.inj h ▸ hname
  refine ⟨?_, ?_, ?_, ?_, trivial⟩
  · constructor
    · simp (disch := decide) [usable_param]
    · simp
  · constructor <;> simp
  · constructor <;> simp
  · constructor
    · intro n hn
      have hcases : n = "insp_init" ∨ n = "avgTileSize" ∨ n = Mode.symbol s.execution ∨
          n = Mode.symbol s.coloring ∨ listVar meshMapList (meshMapStmts c s) = some n ∨
          listVar partitioningList (partitioningStmts c) = some n ∨ n = "prefetchHalo" ∨
          n = "ignoreWAR" := by
        simpa [Library.inspInit] using hn
      rcases hcases with rfl | rfl | rfl | rfl | hn | hn | rfl | rfl
      · exact usable_function (by decide)
      · exact usable_variable "int" (by simp)
      · exact usable_constant (Library.mem_constants_execution s.execution)
      · exact usable_constant (Library.mem_constants_coloring s.coloring)
      · exact usable_variable "map_list*" (by simp [hlist hmesh _ n hn])
      · exact usable_variable "map_list*" (by simp [hlist hparts _ n hn])
      · exact usable_variable "int" (by simp)
      · exact usable_variable "bool" (by simp)
    · simpa [Library.inspInit, Library.slots, Slot.Filled] using
        ⟨nameOrNull_known (hlist hmesh _), nameOrNull_known (hlist hparts _)⟩

include hsets in
theorem closed_loopStmts (hr : c.Resolved) (hinsp : ("inspector_t*", inspVar) ∈ known)
    (hdescs : ∀ l i, (l, i) ∈ c.loops.zipIdx → ("desc_list", l.descriptorsName i) ∈ known) :
    ∀ st ∈ loopStmts c, ClosedIn c known st := by
  simp only [loopStmts, List.forall_mem_map]
  rintro ⟨l, i⟩ hl
  have hset := hsets _ (hr.loops l (List.mem_of_getElem? (List.mk_mem_zipIdx_iff_getElem?.1 hl)))
  constructor
  · simp (disch := decide) [Library.inspAddParloop, usable_function, usable_variable _ hinsp,
      usable_variable _ hset, usable_variable _ (hdescs l i hl)]
  · simp [Library.inspAddParloop, Library.slots, Slot.Filled, hinsp, hset]

theorem successive_runStmts (seed : Nat) (hinsp : ("inspector_t*", inspVar) ∈ known) :
    Successive Stmt.declared (ClosedIn c) known (runStmts seed) := by
  refine ⟨⟨by simp, by simp⟩, ?_, trivial⟩
  have hinsp' := List.mem_append_left [("int", "seedTilePoint")] hinsp
  have hseed : ("int", "seedTilePoint") ∈ known ++ [("int", "seedTilePoint")] := by simp
  constructor
  · simp (disch := decide) [Library.inspRun, usable_function, usable_variable _ hinsp',
      usable_variable _ hseed]
  · simp [Library.inspRun, Library.slots, Slot.Filled, hinsp]

include hsets in
theorem closed_reportStmts (hinsp : ("inspector_t*", inspVar) ∈ known)
    (hcoord : ∀ f, s.coordinates = some f → c.hasSet f.set = true) :
    ∀ st ∈ reportStmts s, ClosedIn c known st := by
  unfold reportStmts
  cases s.debug with
  | none => simp
  | some level =>
    have hlevel : Usable c known (Mode.symbol level) :=
      usable_constant (Library.mem_constants_debug level)
    have hprint : ClosedIn c known (.expr (Library.inspPrint inspVar level)) := by
      constructor
      · simp (disch := decide) [Library.inspPrint, usable_function, usable_variable _ hinsp, hlevel]
      · simp [Library.inspPrint, Library.slots, Slot.Filled, hinsp]
    simp only [List.forall_mem_cons, closed_blank, List.not_mem_nil, IsEmpty.forall_iff,
      implies_true, and_true]
    refine closed_ifThen ?_ (by simp [Expr.equals]) (List.forall_mem_cons.2 ⟨hprint, ?_⟩)
    · simp (disch := decide) [Expr.equals, usable_param]
    -- with coordinates, the mesh is shown on their set
    · cases hfield : s.coordinates with
      | none => simp
      | some f =>
        have hset := hsets _ (hcoord f hfield)
        have hdim : Usable c known f.constant :=
          usable_constant (Library.mem_constants_dimension f)
        rw [List.forall_mem_singleton]
        constructor
        · simp (disch := decide) [Library.generateVtk, usable_function, usable_param,
            usable_variable _ hinsp, usable_variable _ hset, hlevel, hdim]
        · simp [Library.generateVtk, Library.slots, Slot.Filled, hinsp, hset]

theorem successive_finishStmts (hinsp : ("inspector_t*", inspVar) ∈ known)
    (hmesh : ("map_list*", meshMapList) ∈ known)
    (hparts : ("map_list*", partitioningList) ∈ known) :
    Successive Stmt.declared (ClosedIn c) known finishStmts := by
  refine ⟨?_, successive_closed ?_⟩
  · constructor
    · simp (disch := decide) [Library.execInit, usable_function, usable_variable _ hinsp]
    · simp [Library.execInit, Library.slots, Slot.Filled, hinsp]
  · have hkept {type n : String} (h : (type, n) ∈ known) :
        Usable c (known ++ [("executor_t*", execVar)]) n :=
      usable_variable _ (List.mem_append_left _ h)
    have hexec : Usable c (known ++ [("executor_t*", execVar)]) execVar :=
      usable_variable _ (List.mem_append_right _ (List.mem_singleton_self _))
    simp only [declared_declare, List.forall_mem_cons, List.not_mem_nil, IsEmpty.forall_iff,
      implies_true, and_true]
    refine ⟨⟨?_, ?_⟩, ⟨?_, ?_⟩, ⟨?_, ?_⟩, ⟨?_, ?_⟩⟩
    · simp (disch := decide) [Library.inspFree, usable_function, hkept hinsp]
    · simp [Library.inspFree, Library.slots, Slot.Filled, hinsp]
    · simp [hkept hmesh]
    · simp
    · simp [hkept hparts]
    · simp
    · simp [hexec]
    · simp

end Phases

/-- **The statements of an inspector are closed,** one after another. -/
theorem successive_body (hc : c.Sound) {seed : Nat} (h : check c s = .ok seed) :
    Successive Stmt.declared (ClosedIn c) [] (body c s seed) := by
  obtain ⟨hr, hcoord, -⟩ := check_eq_ok h
  have hsets (n : String) (hn : c.hasSet n = true) :
      ("set_t*", n) ∈ declarations (chainSection c) := by
    simp [chainSection, declared_set hn]
  have hdescs (l : Loop) (i : Nat) (hl : (l, i) ∈ c.loops.zipIdx) :
      ("desc_list", l.descriptorsName i) ∈ declarations (chainSection c) := by
    have hdesc : ("desc_list", l.descriptorsName i) ∈ declarations (descDecls c) :=
      List.mem_flatMap.2 ⟨_, List.mem_map_of_mem hl, List.mem_singleton_self _⟩
    simp [chainSection, hdesc]
  have hmesh : ("map_list*", meshMapList) ∈ declarations (meshSection c s) := by
    simp [meshSection, newList]
  have hparts : ("map_list*", partitioningList) ∈ declarations (partSection c) := by
    simp [partSection, newList]
  have hinsp : ("inspector_t*", inspVar) ∈ declarations (initStmts c s) := by simp [initStmts]
  -- a section may use what the sections before it declare
  simp only [body_eq, successive_section]
  refine ⟨?_, ?_, ?_, ?_, ?_, ?_, ?_⟩
  · exact successive_chainSection hc hr
  · exact successive_meshSection fun n hn => by simp [hsets n hn]
  · exact successive_partSection fun n hn => by simp [hsets n hn]
  · exact successive_initStmts (by simp [hmesh]) (by simp [hparts])
  · exact successive_closed (closed_loopStmts (fun n hn => by simp [hsets n hn]) hr
      (by simp [hinsp]) fun l i hl => by simp [hdescs l i hl])
  · exact successive_runStmts seed (by simp [hinsp])
  · refine successive_append.2 ⟨successive_closed ?_, ?_⟩
    · exact closed_reportStmts (fun n hn => by simp [hsets n hn]) (by simp [hinsp]) hcoord
    · exact successive_finishStmts (by simp [hinsp]) (by simp [hmesh]) (by simp [hparts])

end SparseTiling.Inspector
