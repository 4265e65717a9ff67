import SparseTiling.Proofs.Inspector.Distinct
import SparseTiling.Proofs.Inspector.Protocol

/-!
# What an inspector hands on

Mesh maps and partitionings arrive in tables with more rows than the inspector uses. Those
in use become variables that read their own row, wherever it stands in the table, and are
then put into a list for the tiling library; the others leave a warning and nothing else.

* `Stmt.cells`, `Stmt.insertions`: which rows of which tables are read, and what is put
  into which lists.
* `Touches`, `Spares`: the tables and lists of a statement.
* `HandsOn`: the items of a table that are used are handed on, each from its own row.
* `handsOn_of_split`: statements that declare items row by row and then insert them do that.
* `CountsParts`: the number of parts that a partitioning has.
* `Accounted`, `generate_accounts`: no mesh map or partitioning is lost, doubled or mixed up.
-/

namespace SparseTiling.Code

/-! ## Rows and lists -/

/-- The table and the row of a subscript with a fixed position. -/
@[simp] def Expr.cell? : Expr → Option (String × Int)
  | .index (.ident table) (.int row) => some (table, row)
  | _ => none

/-- The list and the arguments of an insertion. -/
@[simp] def Expr.insertion? : Expr → Option (String × List Expr)
  | .call (.arrow (.ident into) method) args =>
    if method = "insert" then some (into, args) else none
  | _ => none

section Shapes

variable {name table : String} {args : List Expr} {row : Nat}

@[simp] theorem cells_callName :
    (Expr.callName name args).collect Expr.cell? = args.flatMap (Expr.collect Expr.cell?) := by
  simp [Expr.callName]

@[simp] theorem insertions_callName : (Expr.callName name args).collect Expr.insertion? =
    args.flatMap (Expr.collect Expr.insertion?) := by
  simp [Expr.callName]

@[simp] theorem cells_tableCell :
    (Expr.tableCell table row name).collect Expr.cell? = [(table, (row : Int))] := by
  simp [Expr.tableCell]

@[simp] theorem insertions_tableCell :
    (Expr.tableCell table row name).collect Expr.insertion? = [] := by
  simp [Expr.tableCell]

@[simp] theorem cells_nameOrNull (var : Option String) :
    (Expr.nameOrNull var).collect Expr.cell? = [] := by
  cases var <;> simp [Expr.nameOrNull]

@[simp] theorem insertions_nameOrNull (var : Option String) :
    (Expr.nameOrNull var).collect Expr.insertion? = [] := by
  cases var <;> simp [Expr.nameOrNull]

end Shapes

/-- The rows of tables that a statement reads, with the statements inside it. -/
abbrev Stmt.cells (s : Stmt) : List (String × Int) := s.collect Expr.cell?

/-- What a statement inserts into lists, with the statements inside it. -/
abbrev Stmt.insertions (s : Stmt) : List (String × List Expr) := s.collect Expr.insertion?

/-- The statements that read a row of a table. -/
def readers (table : String) (row : Nat) (stmts : List Stmt) : List Stmt :=
  stmts.filter fun s => (table, (row : Int)) ∈ s.cells

/-- What is inserted into a list, one after another. -/
def insertedInto (list : String) (stmts : List Stmt) : List (List Expr) :=
  ((stmts.flatMap Stmt.insertions).filter fun x => x.1 = list).map (·.2)

theorem readers_append (table : String) (row : Nat) (first rest : List Stmt) :
    readers table row (first ++ rest) = readers table row first ++ readers table row rest :=
  List.filter_append _ _

theorem insertedInto_append (list : String) (first rest : List Stmt) :
    insertedInto list (first ++ rest) = insertedInto list first ++ insertedInto list rest := by
  simp [insertedInto]

/-- A statement reads no other tables than these, and fills no other lists than these. -/
structure Touches (tables lists : List String) (s : Stmt) : Prop where
  reads : ∀ x ∈ s.cells, x.1 ∈ tables
  fills : ∀ x ∈ s.insertions, x.1 ∈ lists

/-- A statement neither reads a table nor fills a list. -/
structure Spares (table list : String) (s : Stmt) : Prop where
  reads : ∀ x ∈ s.cells, x.1 ≠ table
  fills : ∀ x ∈ s.insertions, x.1 ≠ list

section Spares

variable {table list : String} {s : Stmt} {stmts : List Stmt}

theorem Touches.spares {tables lists : List String} (h : Touches tables lists s)
    (htable : table ∉ tables) (hlist : list ∉ lists) : Spares table list s where
  reads x hx he := htable (he ▸ h.reads x hx)
  fills x hx he := hlist (he ▸ h.fills x hx)

theorem Touches.spares_nil (h : Touches [] [] s) : Spares table list s :=
  h.spares List.not_mem_nil List.not_mem_nil

theorem readers_eq_nil (h : ∀ s ∈ stmts, ∀ x ∈ s.cells, x.1 ≠ table) (row : Nat) :
    readers table row stmts = [] := by
  rw [readers, List.filter_eq_nil_iff]
  intro s hs hmem
  exact h s hs _ (of_decide_eq_true hmem) rfl

theorem insertedInto_eq_nil (h : ∀ s ∈ stmts, ∀ x ∈ s.insertions, x.1 ≠ list) :
    insertedInto list stmts = [] := by
  have hnone : (stmts.flatMap Stmt.insertions).filter (fun x => x.1 = list) = [] := by
    rw [List.filter_eq_nil_iff]
    intro x hx he
    obtain ⟨s, hs, hx⟩ := List.mem_flatMap.1 hx
    exact h s hs x hx (of_decide_eq_true he)
  rw [insertedInto, hnone, List.map_nil]

end Spares

end SparseTiling.Code

namespace SparseTiling.Inspector

open Code

variable {c : Chain} {s : Settings}

/-! ## Handing on the items of a table -/

/-- The items of a table that are used are handed on in a list: each of them is declared by
statements that read its own row, which nothing else reads, and inserted once, after all
declarations. Rows of other items are not read. -/
structure HandsOn {α : Type} (table list : String) (items : List α) (used : α → Bool)
    (decls : α → Nat → List Stmt) (var : α → String) (body : List Stmt) : Prop where
  rows : ∀ i, readers table i body =
    match items[i]? with
    | some x => if used x then decls x i else []
    | none => []
  inserts : insertedInto list body = (items.filter used).map fun x => [.ident (var x)]
  after : body.Pairwise fun a b =>
    (∃ x ∈ a.insertions, x.1 = list) → ∀ x ∈ b.cells, x.1 ≠ table

section Split

variable {α : Type} {table list : String} {items : List α} {used : α → Bool}
  {decls : α → Nat → List Stmt} {var : α → String} {before after : List Stmt}

/-- Each declaration reads its own row of the table, and inserts nothing. -/
structure ReadsOwnRow (table : String) (decls : α → Nat → List Stmt) : Prop where
  cells : ∀ x i, ∀ st ∈ decls x i, ∀ row, (table, row) ∈ st.cells ↔ row = (i : Int)
  insertions : ∀ x i, ∀ st ∈ decls x i, st.insertions = []

/-- Among declarations made row by row, those that read a row are those of its item. -/
theorem ReadsOwnRow.readers_flatMap (h : ReadsOwnRow table decls) (rows : List (α × Nat))
    (i : Nat) : readers table i (rows.flatMap fun x => decls x.1 x.2) =
      (rows.filter fun x => x.2 = i).flatMap fun x => decls x.1 x.2 := by
  induction rows with
  | nil => rfl
  | cons x rows ih =>
    rw [List.flatMap_cons, readers_append, ih, List.filter_cons]
    by_cases hx : x.2 = i
    · have hall : readers table i (decls x.1 x.2) = decls x.1 x.2 := by
        rw [readers, List.filter_eq_self]
        intro st hst
        rw [decide_eq_true_iff, h.cells x.1 x.2 st hst, hx]
      rw [hall, if_pos (decide_eq_true hx), List.flatMap_cons]
    · have hnone : readers table i (decls x.1 x.2) = [] := by
        rw [readers, List.filter_eq_nil_iff]
        intro st hst hmem
        rw [decide_eq_true_iff, h.cells x.1 x.2 st hst, Int.natCast_inj] at hmem
        exact hx hmem.symm
      rw [hnone, if_neg (by simpa using hx), List.nil_append]

theorem insertions_insert (item : String) :
    (insert list item).insertions = [(list, [.ident item])] := by
  simp [insert]

theorem cells_insert (item : String) : (insert list item).cells = [] := by
  simp [insert]

theorem insertedInto_inserts (xs : List α) :
    insertedInto list (xs.map fun x => insert list (var x)) = xs.map fun x => [.ident (var x)] := by
  have hall : (xs.map fun x => insert list (var x)).flatMap Stmt.insertions =
      xs.map fun x => (list, [.ident (var x)]) := by
    rw [List.flatMap_map, List.map_eq_flatMap]
    simp only [insertions_insert]
  rw [insertedInto, hall, List.filter_eq_self.2 (by simp), List.map_map]
  rfl

/-- What comes first does not insert, and what comes last does not read. -/
theorem pairwise_of_split {P Q : Stmt → Prop} {first last : List Stmt}
    (hfirst : ∀ a ∈ first, ¬ P a) (hlast : ∀ b ∈ last, Q b) :
    (first ++ last).Pairwise fun a b => P a → Q b := by
  refine List.pairwise_append.2 ⟨?_, ?_, fun a ha b _ hP => absurd hP (hfirst a ha)⟩
  · exact List.pairwise_of_forall_mem_list fun a ha b _ hP => absurd hP (hfirst a ha)
  · exact List.pairwise_of_forall_mem_list fun a _ b hb _ => hlast b hb

/-- **Declaring items row by row and then inserting them hands them on.** -/
theorem handsOn_of_split (h : ReadsOwnRow table decls)
    (hbefore : ∀ st ∈ before, Spares table list st) (hafter : ∀ st ∈ after, Spares table list st)
    {rows : List (α × Nat)} (hrows : rows = items.zipIdx.filter fun x => used x.1) :
    HandsOn table list items used decls var
      ((before ++ rows.flatMap fun x => decls x.1 x.2) ++
        ((rows.map fun x => insert list (var x.1)) ++ after)) := by
  have hread : ∀ st ∈ (rows.map fun x => insert list (var x.1)) ++ after,
      ∀ x ∈ st.cells, x.1 ≠ table := by
    intro st hst
    rcases List.mem_append.1 hst with hst | hst
    · obtain ⟨x, -, rfl⟩ := List.mem_map.1 hst
      simp [cells_insert]
    · exact (hafter st hst).reads
  have hfill : ∀ st ∈ before ++ rows.flatMap (fun x => decls x.1 x.2),
      ∀ x ∈ st.insertions, x.1 ≠ list := by
    intro st hst
    rcases List.mem_append.1 hst with hst | hst
    · exact (hbefore st hst).fills
    · obtain ⟨x, -, hst⟩ := List.mem_flatMap.1 hst
      simp [h.insertions x.1 x.2 st hst]
  refine ⟨fun i => ?_, ?_, pairwise_of_split (fun st hst => ?_) hread⟩
  · have hrow : (rows.filter fun x => x.2 = i) =
        ((items[i]?).toList.map fun x => (x, i)).filter fun x => used x.1 := by
      have hat := filter_zipIdx_eq items i 0
      rw [Nat.zero_add] at hat
      rw [hrows, List.filter_comm, hat]
    rw [readers_append, readers_append, readers_eq_nil (fun st hst => (hbefore st hst).reads),
      readers_eq_nil hread, h.readers_flatMap, hrow, List.nil_append, List.append_nil]
    cases items[i]? with
    | none => rfl
    | some x => cases hx : used x <;> simp [hx]
  · have hitems : rows.map (·.1) = items.filter used := by
      rw [hrows]
      exact map_fst_zipIdx_filter used items 0
    rw [insertedInto_append, insertedInto_eq_nil hfill, insertedInto_append,
      insertedInto_eq_nil (fun st hst => (hafter st hst).fills), List.nil_append, List.append_nil,
      insertedInto_inserts, ← hitems, List.map_map]
    rfl
  · rintro ⟨x, hx, he⟩
    exact hfill st hst x hx he

end Split

/-! ## The sections of an inspector -/

/-- The statements from the new inspector on. -/
def closingStmts (c : Chain) (s : Settings) (seed : Nat) : List Stmt :=
  initStmts c s ++ .blank :: (loopStmts c ++ .blank :: (runStmts seed ++ .blank ::
    (reportStmts s ++ finishStmts)))

theorem touches_blank {tables lists : List String} : Touches tables lists .blank :=
  ⟨by simp, by simp⟩

theorem touches_comment {tables lists : List String} (text : String) :
    Touches tables lists (.comment text) :=
  ⟨by simp, by simp⟩

theorem touches_newList {tables lists : List String} (list : String) :
    Touches tables lists (newList list) :=
  ⟨by simp [newList], by simp [newList]⟩

theorem touches_chainSection : ∀ st ∈ chainSection c, Touches [setsTable, mapsTable] [] st := by
  simp only [chainSection, setDecls, mapDecls, descDecls, List.cons_append, List.forall_mem_cons,
    List.forall_mem_append, List.forall_mem_map]
  refine ⟨touches_comment _, ⟨fun x _ => ?_, fun m _ => ?_⟩, fun l _ => ?_⟩
  · constructor <;> simp [Library.set]
  · constructor <;> simp [Library.map]
  · constructor <;> simp [Library.desc]

theorem touches_meshSection :
    ∀ st ∈ meshSection c s, Touches [meshMapsTable] [meshMapList] st := by
  simp only [meshSection, meshMapStmts, List.forall_mem_cons, List.forall_mem_append,
    List.forall_mem_map]
  refine ⟨touches_comment _, touches_newList _, fun m _ => ?_, fun m _ => ?_⟩
  · constructor <;> simp [Library.map]
  · constructor <;> simp [cells_insert, insertions_insert]

theorem touches_partSection :
    ∀ st ∈ partSection c, Touches [partitioningsTable] [partitioningList] st := by
  simp only [partSection, partitioningStmts, partitioningDecls, List.forall_mem_cons,
    List.forall_mem_append, List.forall_mem_map, List.forall_mem_flatMap]
  refine ⟨touches_comment _, touches_newList _, fun p _ => ⟨?_, ?_, by simp⟩, fun p _ => ?_⟩
  · constructor <;> simp [Library.partSet]
  · constructor <;> simp [Library.partMap]
  · constructor <;> simp [cells_insert, insertions_insert]

theorem touches_reportStmts : ∀ st ∈ reportStmts s, Touches [coordsTable] [] st := by
  unfold reportStmts
  cases s.debug with
  | none => simp
  | some level =>
    simp only [List.forall_mem_cons]
    refine ⟨?_, touches_blank, by simp⟩
    cases s.coordinates with
    | none => constructor <;> simp [Library.inspPrint, Expr.equals]
    | some field =>
      constructor <;> simp [Library.inspPrint, Library.generateVtk, Expr.equals]

theorem touches_closingStmts (seed : Nat) :
    ∀ st ∈ closingStmts c s seed, Touches [coordsTable] [] st := by
  have hinit : ∀ st ∈ initStmts c s, Touches [coordsTable] [] st := by
    simp only [initStmts, List.forall_mem_cons]
    refine ⟨?_, ?_, ?_, ?_, by simp⟩ <;> constructor <;> simp [Library.inspInit]
  have hloops : ∀ st ∈ loopStmts c, Touches [coordsTable] [] st := by
    simp only [loopStmts, List.forall_mem_map]
    intro l _
    constructor <;> simp [Library.inspAddParloop]
  have hrun : ∀ st ∈ runStmts seed, Touches [coordsTable] [] st := by
    simp only [runStmts, List.forall_mem_cons]
    refine ⟨?_, ?_, by simp⟩ <;> constructor <;> simp [Library.inspRun]
  have hfinish : ∀ st ∈ finishStmts, Touches [coordsTable] [] st := by
    simp only [finishStmts, List.forall_mem_cons]
    refine ⟨?_, ?_, ?_, ?_, ?_, by simp⟩ <;> constructor <;>
      simp [Library.execInit, Library.inspFree]
  simp only [closingStmts, List.forall_mem_append, List.forall_mem_cons]
  exact ⟨hinit, touches_blank, hloops, touches_blank, hrun, touches_blank, touches_reportStmts,
    hfinish⟩

theorem body_sections (seed : Nat) : body c s seed =
    chainSection c ++ .blank :: (meshSection c s ++ .blank :: (partSection c ++ .blank ::
      closingStmts c s seed)) :=
  body_eq seed

/-! ## Mesh maps and partitionings -/

/-- The variable of a mesh map, from its row. -/
def meshMapDecls (m : MeshMap) (row : Nat) : List Stmt :=
  [.declare "map_t*" (meshMapVar m) (Library.map meshMapsTable row m.source m.target)]

theorem readsOwnRow_meshMapDecls : ReadsOwnRow meshMapsTable meshMapDecls := by
  constructor <;> simp [meshMapDecls, Library.map]

theorem readsOwnRow_partitioningDecls : ReadsOwnRow partitioningsTable partitioningDecls := by
  constructor <;> simp [partitioningDecls, Library.partSet, Library.partMap]

theorem meshMapRows_eq :
    meshMapRows c s = s.meshMaps.zipIdx.filter fun x => handedOn c s x.1 := by
  unfold meshMapRows handedOn
  cases s.partitioning.usesTopology with
  | false => simp
  | true => simp [Chain.hasSets]

/-- **The mesh maps in use are handed on.** -/
theorem handsOn_meshMaps (seed : Nat) : HandsOn meshMapsTable meshMapList s.meshMaps
    (handedOn c s) meshMapDecls meshMapVar (body c s seed) := by
  have hsplit : body c s seed =
      ((chainSection c ++ [.blank, .comment "Mesh topology, used by topology-aware partitioning",
          newList meshMapList]) ++ (meshMapRows c s).flatMap fun x => meshMapDecls x.1 x.2) ++
        (((meshMapRows c s).map fun x => insert meshMapList (meshMapVar x.1)) ++
          .blank :: (partSection c ++ .blank :: closingStmts c s seed)) := by
    rw [body_sections]
    simp [meshSection, meshMapStmts, meshMapDecls, List.map_eq_flatMap]
  rw [hsplit]
  refine handsOn_of_split readsOwnRow_meshMapDecls ?_ ?_ meshMapRows_eq
  · simp only [List.forall_mem_append, List.forall_mem_cons]
    exact ⟨fun st hst => (touches_chainSection st hst).spares (by decide) (by decide),
      touches_blank.spares_nil, (touches_comment _).spares_nil, (touches_newList _).spares_nil,
      by simp⟩
  · simp only [List.forall_mem_append, List.forall_mem_cons]
    exact ⟨touches_blank.spares_nil,
      fun st hst => (touches_partSection st hst).spares (by decide) (by decide),
      touches_blank.spares_nil,
      fun st hst => (touches_closingStmts seed st hst).spares (by decide) (by decide)⟩

/-- **The partitionings in use are handed on.** -/
theorem handsOn_partitionings (seed : Nat) : HandsOn partitioningsTable partitioningList
    c.partitionings (fun p => c.hasSet p.set) partitioningDecls (·.mapName) (body c s seed) := by
  have hsplit : body c s seed =
      ((chainSection c ++ .blank :: (meshSection c s ++ [.blank,
          .comment "Set partitionings, seeding the tiling", newList partitioningList])) ++
          (partitioningRows c).flatMap fun x => partitioningDecls x.1 x.2) ++
        (((partitioningRows c).map fun x => insert partitioningList x.1.mapName) ++
          .blank :: closingStmts c s seed) := by
    rw [body_sections]
    simp [partSection, partitioningStmts]
  rw [hsplit]
  refine handsOn_of_split readsOwnRow_partitioningDecls ?_ ?_ rfl
  · simp only [List.forall_mem_append, List.forall_mem_cons]
    exact ⟨fun st hst => (touches_chainSection st hst).spares (by decide) (by decide),
      touches_blank.spares_nil,
      fun st hst => (touches_meshSection st hst).spares (by decide) (by decide),
      touches_blank.spares_nil, (touches_comment _).spares_nil, (touches_newList _).spares_nil,
      by simp⟩
  · simp only [List.forall_mem_cons]
    exact ⟨touches_blank.spares_nil,
      fun st hst => (touches_closingStmts seed st hst).spares (by decide) (by decide)⟩

/-! ## Sets and maps -/

/-- The declarations with a type, inner statements included. -/
def declaring (type : String) (stmts : List Stmt) : List Stmt :=
  (Stmt.preorder stmts).filter (declares type)

theorem declaring_append (type : String) (first rest : List Stmt) :
    declaring type (first ++ rest) = declaring type first ++ declaring type rest := by
  simp [declaring, Stmt.preorder_eq]

theorem declaring_blank (type : String) (rest : List Stmt) :
    declaring type (.blank :: rest) = declaring type rest := rfl

/-- Where there are no inner statements, only the statements themselves count. -/
theorem declaring_flat {stmts : List Stmt} (type : String) (h : ∀ st ∈ stmts, st.subtree = [st]) :
    declaring type stmts = stmts.filter (declares type) := by
  rw [declaring, Stmt.preorder_flat h]

theorem length_meshMapRows : (meshMapRows c s).length = (s.meshMaps.filter (handedOn c s)).length := by
  rw [← map_fst_meshMapRows, List.length_map]

theorem length_partitioningRows :
    (partitioningRows c).length = (c.partitionings.filter fun p => c.hasSet p.set).length := by
  have hrows := map_fst_zipIdx_filter (fun p : Partitioning => c.hasSet p.set) c.partitionings 0
  rw [← hrows, List.length_map]
  rfl

theorem declaring_chainSection (type : String) :
    declaring type (chainSection c) = (chainSection c).filter (declares type) := by
  apply declaring_flat
  simp only [chainSection, setDecls, mapDecls, descDecls, List.cons_append, List.forall_mem_cons,
    List.forall_mem_append, List.forall_mem_map]
  exact ⟨rfl, ⟨fun _ _ => rfl, fun _ _ => rfl⟩, fun _ _ => rfl⟩

section Types

variable {type : String} (h : type = "set_t*" ∨ type = "map_t*" ∨ type = "desc_list")

include h

theorem declaring_meshSection :
    declaring type (meshSection c s) = (meshMapStmts c s).filter (declares type) := by
  have hflat : ∀ st ∈ meshSection c s, st.subtree = [st] := by
    simp only [meshSection, meshMapStmts, List.forall_mem_cons, List.forall_mem_append,
      List.forall_mem_map]
    exact ⟨rfl, rfl, fun _ _ => rfl, fun _ _ => rfl⟩
  rw [declaring_flat type hflat]
  rcases h with rfl | rfl | rfl <;> rfl

theorem declaring_partSection :
    declaring type (partSection c) = (partitioningStmts c).filter (declares type) := by
  have hflat : ∀ st ∈ partSection c, st.subtree = [st] := by
    simp only [partSection, partitioningStmts, partitioningDecls, List.forall_mem_cons,
      List.forall_mem_append, List.forall_mem_map, List.forall_mem_flatMap]
    exact ⟨rfl, rfl, fun _ _ => ⟨rfl, rfl, by simp⟩, fun _ _ => rfl⟩
  rw [declaring_flat type hflat]
  rcases h with rfl | rfl | rfl <;> rfl

/-- From the new inspector on, nothing of these types is declared. -/
theorem declaring_closingStmts (seed : Nat) : declaring type (closingStmts c s seed) = [] := by
  have hloops : declaring type (loopStmts c) = [] := by
    have hflat : ∀ st ∈ loopStmts c, st.subtree = [st] := by
      simp only [loopStmts, List.forall_mem_map]
      exact fun _ _ => rfl
    rw [declaring_flat type hflat]
    exact filter_map_none fun _ _ => rfl
  have hreport : declaring type (reportStmts s) = [] := by
    unfold reportStmts
    cases s.debug with
    | none => rfl
    | some level => cases s.coordinates <;> rfl
  have hrest : declaring type (initStmts c s) = [] ∧ declaring type (runStmts seed) = [] ∧
      declaring type finishStmts = [] := by
    rcases h with rfl | rfl | rfl <;> exact ⟨rfl, rfl, rfl⟩
  rw [closingStmts, declaring_append, hrest.1, declaring_blank, declaring_append, hloops,
    declaring_blank, declaring_append, hrest.2.1, declaring_blank, declaring_append, hreport,
    hrest.2.2]
  rfl

/-- What is declared for the chain, for mesh maps and for partitionings is all. -/
theorem declaring_body (seed : Nat) : declaring type (body c s seed) =
    (chainSection c).filter (declares type) ++ (meshMapStmts c s).filter (declares type) ++
      (partitioningStmts c).filter (declares type) := by
  rw [body_sections, declaring_append, declaring_chainSection, declaring_blank, declaring_append,
    declaring_meshSection h, declaring_blank, declaring_append, declaring_partSection h,
    declaring_blank, declaring_closingStmts h, List.append_nil, List.append_assoc]

end Types

theorem length_filter_partitioningStmts {type : String} (h : type = "set_t*" ∨ type = "map_t*") :
    ((partitioningStmts c).filter (declares type)).length = (partitioningRows c).length := by
  have hinserts : ((partitioningRows c).map fun p =>
      insert partitioningList p.1.mapName).filter (declares type) = [] :=
    filter_map_none fun _ _ => rfl
  have hone : ∀ p : Partitioning × Nat,
      ((partitioningDecls p.1 p.2).filter (declares type)).length = 1 := by
    rcases h with rfl | rfl <;> exact fun _ => rfl
  rw [partitioningStmts, List.filter_append, hinserts, List.append_nil, List.filter_flatMap,
    List.length_flatMap]
  simp [hone]

theorem length_declaring_sets (seed : Nat) : (declaring "set_t*" (body c s seed)).length =
    c.sets.length + (c.partitionings.filter fun p => c.hasSet p.set).length := by
  have hmesh : (meshMapStmts c s).filter (declares "set_t*") = [] := by
    rw [meshMapStmts, List.filter_append, filter_map_none fun _ _ => rfl,
      filter_map_none fun _ _ => rfl, List.append_nil]
  rw [declaring_body (.inl rfl), filter_setDecls, hmesh, List.append_nil, List.length_append,
    length_filter_partitioningStmts (.inl rfl), length_partitioningRows]
  simp [setDecls]

theorem length_declaring_maps (seed : Nat) : (declaring "map_t*" (body c s seed)).length =
    c.maps.length + (s.meshMaps.filter (handedOn c s)).length +
      (c.partitionings.filter fun p => c.hasSet p.set).length := by
  have hmesh : ((meshMapStmts c s).filter (declares "map_t*")).length =
      (meshMapRows c s).length := by
    rw [meshMapStmts, List.filter_append, filter_map_all fun _ _ => rfl,
      filter_map_none fun _ _ => rfl, List.append_nil, List.length_map]
  rw [declaring_body (.inr (.inl rfl)), filter_mapDecls, List.length_append, List.length_append,
    hmesh, length_filter_partitioningStmts (.inr rfl), length_partitioningRows, length_meshMapRows]
  simp [mapDecls]

/-! ## Accounting for everything -/

/-- A list is handed on where something is in it. -/
def listArgument (list : String) (filled : Bool) : Expr := if filled then .ident list else .null

/-- A mesh map that is read from a row of its table. -/
def meshMapFrom (m : MeshMap) (row : Nat) : List Stmt :=
  [.declare "map_t*" ("mm_" ++ m.name)
    (.callName "map"
      [.tableCell "mesh_maps" row "name", .ident m.source, .ident m.target,
        .tableCell "mesh_maps" row "map", .tableCell "mesh_maps" row "size"])]

/-- The parts of a partitioning and the map to them, read from a row of its table. -/
def partitioningFrom (p : Partitioning) (row : Nat) : List Stmt :=
  [.declare "set_t*" (p.set ++ "_partitioning")
      (.callName "set"
        [.tableCell "partitionings" row "name", .tableCell "partitionings" row "nparts", .int 0,
          .int 0, .null]),
    .declare "map_t*" (p.set ++ "_to_partitioning")
      (.callName "map"
        [.str (p.set ++ "_to_partitioning"), .ident p.set, .ident (p.set ++ "_partitioning"),
          .tableCell "partitionings" row "part", .tableCell "partitionings" row "size"])]

/-- A number of parts: each number of a part is below it, and it is no larger than it has to be. -/
def CountsParts (ids : List Int32) (n : Nat) : Prop :=
  (∀ id ∈ ids, id.toInt < n) ∧ (n = 0 ∨ ∃ id ∈ ids, id.toInt + 1 = n)

/-- An inspector accounts for all mesh maps and partitionings. -/
structure Accounted (c : Chain) (s : Settings) (e : Emission) (body : List Stmt) : Prop where
  declared : ∀ set, c.hasSet set = true ↔ set ∈ c.sets.map (·.name)
  /-- Mesh maps are for one mode of partitioning, and for sets of the chain. -/
  used : ∀ m, handedOn c s m =
    (decide (s.partitioning = .metis) && c.hasSet m.source && c.hasSet m.target)
  meshMaps : HandsOn "mesh_maps" "meshMaps" s.meshMaps (handedOn c s) meshMapFrom
    (fun m => "mm_" ++ m.name) body
  partitionings : HandsOn "partitionings" "setPartitionings" c.partitionings
    (fun p => c.hasSet p.set) partitioningFrom (fun p => p.set ++ "_to_partitioning") body
  /-- There are no sets but those of the chain and those of parts. -/
  sets : (declaring "set_t*" body).length =
    c.sets.length + (c.partitionings.filter fun p => c.hasSet p.set).length
  maps : (declaring "map_t*" body).length =
    c.maps.length + (s.meshMaps.filter (handedOn c s)).length +
      (c.partitionings.filter fun p => c.hasSet p.set).length
  /-- The tables have a row for each item, used or not. -/
  tables : e.arguments[5]? = some (.meshMaps (s.meshMaps.map fun m => ⟨m.name, m.values.length⟩)) ∧
    e.arguments[6]? = some (.partitionings (c.partitionings.map fun p =>
      ⟨p.set ++ "_partitioning", p.values.length, partsAmong p.values⟩))
  counts : ∀ p ∈ c.partitionings, CountsParts p.values (partsAmong p.values)
  /-- What could not be used is warned about, once each. -/
  warnings : e.warnings.map (·.message) =
    ((s.meshMaps.filter fun m => decide (s.partitioning = .metis) && !handedOn c s m).map fun m =>
        "mesh map `" ++ m.name ++ "` skipped") ++
      (c.partitionings.filter fun p => !c.hasSet p.set).map fun p =>
        "partitioning of `" ++ p.set ++ "` skipped"
  init : ∃ args, (Stmt.occurrencesAll [] body).filter (fun o => o.function? = some "insp_init") =
      [calling (some inspVar) "insp_init" args] ∧
    args[3]? = some (listArgument "meshMaps" (s.meshMaps.any (handedOn c s))) ∧
    args[4]? = some (listArgument "setPartitionings" (c.partitionings.any fun p => c.hasSet p.set))

theorem isEmpty_meshMapStmts :
    (meshMapStmts c s).isEmpty = !(s.meshMaps.any (handedOn c s)) := by
  have hrows : meshMapRows c s = [] ↔ s.meshMaps.filter (handedOn c s) = [] := by
    rw [← map_fst_meshMapRows, List.map_eq_nil_iff]
  rw [Bool.eq_iff_iff, List.isEmpty_iff, meshMapStmts, List.append_eq_nil_iff, List.map_eq_nil_iff,
    List.map_eq_nil_iff, and_self, hrows]
  simp

theorem isEmpty_partitioningStmts :
    (partitioningStmts c).isEmpty = !(c.partitionings.any fun p => c.hasSet p.set) := by
  have hrows : partitioningRows c = [] ↔ c.partitionings.filter (fun p => c.hasSet p.set) = [] := by
    rw [← map_fst_zipIdx_filter (fun p => c.hasSet p.set) c.partitionings 0, List.map_eq_nil_iff]
    rfl
  -- the insertions alone tell whether there is a row
  have hdecls : (partitioningStmts c = []) ↔ partitioningRows c = [] := by
    rw [partitioningStmts, List.append_eq_nil_iff, List.map_eq_nil_iff]
    exact ⟨And.right, fun h => ⟨by rw [h]; rfl, h⟩⟩
  rw [Bool.eq_iff_iff, List.isEmpty_iff, hdecls, hrows]
  simp

theorem nameOrNull_listVar (list : String) (stmts : List Stmt) :
    Expr.nameOrNull (listVar list stmts) = listArgument list !stmts.isEmpty := by
  unfold listVar listArgument
  cases stmts.isEmpty <;> rfl

/-- The one call that makes an inspector. -/
theorem filter_init (seed : Nat) : (Stmt.occurrencesAll [] (body c s seed)).filter
    (fun o => o.function? = some "insp_init") = [initCall c s] := by
  have hone : ((protocol c s).filter fun o => o.function? = some "insp_init").length = 1 := by
    have hcount := count_functions (c := c) (s := s) (f := "insp_init") (by decide)
    rw [count_once (by decide), List.count_filterMap] at hcount
    rw [← List.countP_eq_length_filter, ← hcount]
    exact List.countP_congr fun o _ => by rw [beq_iff_eq, decide_eq_true_iff]
  have hmem : initCall c s ∈ (protocol c s).filter fun o => o.function? = some "insp_init" := by
    simp [protocol, preparation, initCall, calling]
  obtain ⟨o, ho⟩ := List.length_eq_one_iff.1 hone
  rw [ho, List.mem_singleton] at hmem
  rw [occurrencesAll_body, ho, hmem]

theorem usesTopology_eq (mode : PartitionMode) :
    mode.usesTopology = decide (mode = .metis) := by
  cases mode <;> rfl

theorem countsParts_partsAmong (ids : List Int32) : CountsParts ids (partsAmong ids) := by
  induction ids with
  | nil => exact ⟨by simp, .inl rfl⟩
  | cons id ids ih =>
    obtain ⟨hbelow, hleast⟩ := ih
    unfold CountsParts partsAmong
    refine ⟨List.forall_mem_cons.2 ⟨by omega, fun other hother => ?_⟩, ?_⟩
    · have := hbelow other hother
      omega
    · -- the new number is the largest one or the largest of the others stays it
      by_cases hid : partsAmong ids < (id.toInt + 1).toNat
      · exact .inr ⟨id, by simp, by omega⟩
      · rw [Nat.max_eq_right (by omega)]
        exact hleast.imp_right fun h => by
          obtain ⟨other, hother, heq⟩ := h
          exact ⟨other, List.mem_cons_of_mem _ hother, heq⟩

theorem accounted_body (seed : Nat) (source : String) :
    Accounted c s ⟨source, arguments c s, skipped c s, seed⟩ (body c s seed) := by
  constructor
  case declared =>
    intro set
    simp [Chain.hasSet]
  case used =>
    intro m
    rw [handedOn, usesTopology_eq]
  case meshMaps => exact handsOn_meshMaps seed
  case partitionings => exact handsOn_partitionings seed
  case sets => exact length_declaring_sets seed
  case maps => exact length_declaring_maps seed
  case tables =>
    refine ⟨rfl, ?_⟩
    rw [← funext partRow_eq]
    rfl
  case counts => exact fun p _ => countsParts_partsAmong p.values
  case warnings =>
    have hmesh : skippedMeshMaps c s =
        s.meshMaps.filter fun m => decide (s.partitioning = .metis) && !handedOn c s m := by
      simp only [← usesTopology_eq]
      unfold skippedMeshMaps handedOn
      cases s.partitioning.usesTopology with
      | false => simp
      | true => simp [Chain.hasSets]
    rw [skipped, List.map_append, List.map_map, List.map_map, hmesh]
    rfl
  case init =>
    refine ⟨_, filter_init seed, ?_, ?_⟩
    · simp [nameOrNull_listVar, isEmpty_meshMapStmts, meshMapList]
    · simp [nameOrNull_listVar, isEmpty_partitioningStmts, partitioningList]

/-- **No mesh map and no partitioning is lost, doubled or mixed up.** Take a chain that calls
lead to and any settings. A generated inspector reads each mesh map and each partitioning
that it can use from its own row and hands it on once; for each other it warns. -/
theorem generate_accounts (name : String) (calls : List Chain.Call) (s : Settings) (e : Emission)
    (h : generate ((Chain.new name).afterAll calls) s = .ok e) :
    ∃ program body, programOf ((Chain.new name).afterAll calls) s = .ok program ∧
      e.source = render program ∧ bodyOf program = some body ∧
      Accounted ((Chain.new name).afterAll calls) s e body := by
  obtain ⟨seed, hcheck, he⟩ := bind_eq_ok h
  obtain rfl := Except.ok.inj he
  exact ⟨program _ s seed, _, programOf_of_check hcheck, rfl, bodyOf_program seed,
    accounted_body seed _⟩

theorem generate_accounts_edges :
    ∃ e program body, generate ((Chain.new "airfoil").afterAll edgeCalls) edgeSettings = .ok e ∧
      programOf ((Chain.new "airfoil").afterAll edgeCalls) edgeSettings = .ok program ∧
      e.source = render program ∧ bodyOf program = some body ∧
      Accounted ((Chain.new "airfoil").afterAll edgeCalls) edgeSettings e body := by
  have hcheck : check ((Chain.new "airfoil").afterAll edgeCalls) edgeSettings = .ok 1 := by cbv
  obtain ⟨e, he, -⟩ := generate_of_check hcheck
  obtain ⟨program, body, hprogram, hsource, hbody, haccounted⟩ :=
    generate_accounts "airfoil" edgeCalls edgeSettings e he
  exact ⟨e, program, body, he, hprogram, hsource, hbody, haccounted⟩

end SparseTiling.Inspector
