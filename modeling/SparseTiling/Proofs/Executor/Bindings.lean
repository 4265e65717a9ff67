import SparseTiling.Proofs.Executor.Schedule
import SparseTiling.Proofs.Inspector.Distinct

/-!
# Bindings and the variables of a tile

A binding tells a kernel the names of its variables. These names, the descriptors of the
loop, the maps of the inspector and the declarations in a tile are made in different places,
and here they are shown to agree.

* `sorted_indirectMaps`: the maps of a loop stand in the order of their first use.
* `found`, `found_tileBody`: what a rule finds in a tile, loop by loop.
* `tileLoops`: the loops over tiles in a program; `tileLoops_program`: there is one.
* `nodup_declaredNames_tileBody`: a tile declares every name once.
* `Given`: a variable that a kernel finds, with its one declaration.
* `Fits`, `bindings_fit`: bindings fit the descriptors, the inspector and the tile.
-/

namespace SparseTiling

/-! ## The maps of a loop -/

section Maps

variable {name set : String} {ds : List Descriptor} {d : Descriptor}

/-- One more descriptor adds its map, unless that is there. -/
theorem indirectMaps_snoc : (Loop.mk name set (ds ++ [d])).indirectMaps =
    match d.map with
    | .direct => (Loop.mk name set ds).indirectMaps
    | .map m =>
      if m ∈ (Loop.mk name set ds).indirectMaps then (Loop.mk name set ds).indirectMaps
      else (Loop.mk name set ds).indirectMaps ++ [m] := by
  unfold Loop.indirectMaps
  rw [List.filterMap_append, List.foldl_append]
  cases hd : d.map with
  | direct => simp [hd, MapRef.mapName?]
  | map m =>
    have hlast : [d].filterMap (·.map.mapName?) = [m] := by simp [hd, MapRef.mapName?]
    rw [hlast]
    rfl

/-- **The maps of a loop stand in the order of their first use.** -/
theorem sorted_indirectMaps (l : Loop) : l.indirectMaps.Pairwise fun m n =>
    (l.descriptors.map (·.map)).idxOf (.map m) < (l.descriptors.map (·.map)).idxOf (.map n) := by
  obtain ⟨name, set, ds⟩ := l
  induction ds using List.reverseRecOn with
  | nil => exact .nil
  | append_singleton ds d ih =>
    have hused : ∀ m ∈ (Loop.mk name set ds).indirectMaps, .map m ∈ ds.map (·.map) := by
      intro m hm
      obtain ⟨d', hd', hmap⟩ := Executor.mem_indirectMaps.1 hm
      exact List.mem_map.2 ⟨d', hd', hmap⟩
    -- what is used before the last descriptor is first used where it was
    have hkept : (Loop.mk name set ds).indirectMaps.Pairwise fun m n =>
        ((ds ++ [d]).map (·.map)).idxOf (.map m) < ((ds ++ [d]).map (·.map)).idxOf (.map n) := by
      refine ih.imp_of_mem fun {m n} hm hn hlt => ?_
      rw [List.map_append, List.idxOf_append_of_mem (hused m hm),
        List.idxOf_append_of_mem (hused n hn)]
      exact hlt
    rw [indirectMaps_snoc]
    cases hd : d.map with
    | direct => exact hkept
    | map n =>
      by_cases hn : n ∈ (Loop.mk name set ds).indirectMaps
      · simpa [hn] using hkept
      · have hnew : .map n ∉ ds.map (·.map) := by
          intro hmem
          obtain ⟨d', hd', hmap⟩ := List.mem_map.1 hmem
          exact hn (Executor.mem_indirectMaps.2 ⟨d', hd', hmap⟩)
        simp only [hn, if_false]
        refine List.pairwise_append.2 ⟨hkept, List.pairwise_singleton _ _, fun m hm k hk => ?_⟩
        obtain rfl := List.mem_singleton.1 hk
        rw [List.map_append, List.idxOf_append_of_mem (hused m hm),
          List.idxOf_append_of_notMem hnew]
        have hlt := List.idxOf_lt_length_of_mem (hused m hm)
        omega

theorem nodup_indirectMaps (l : Loop) : l.indirectMaps.Nodup :=
  (sorted_indirectMaps l).imp fun hlt heq => absurd hlt (by rw [heq]; exact Nat.lt_irrefl _)

end Maps

namespace Executor

open Code

variable {c : Chain} {s : Settings} {bs : List Binding} {b : Binding} {kernel : Binding → String}

/-! ## What stands in a tile -/

/-- What a rule finds among statements and the statements inside them. -/
def found {α : Type} (g : Stmt → Option α) (stmts : List Stmt) : List α :=
  (Stmt.preorder stmts).filterMap g

section Found

variable {α β : Type} {g : Stmt → Option α} {st : Stmt} {stmts rest : List Stmt}

theorem found_append (first rest : List Stmt) : found g (first ++ rest) =
    found g first ++ found g rest := by
  simp [found, Stmt.preorder_eq]

theorem found_cons (st : Stmt) (rest : List Stmt) :
    found g (st :: rest) = st.subtree.filterMap g ++ found g rest :=
  List.filterMap_append

/-- A statement with nothing inside. -/
theorem found_leaf (h : st.subtree = [st]) :
    found g (st :: rest) = (g st).toList ++ found g rest := by
  rw [found_cons, h]
  cases hst : g st <;> simp [hst]

/-- A statement with a block inside. -/
theorem found_block {body : List Stmt} (h : st.subtree = st :: Stmt.preorder body) :
    found g (st :: rest) = (g st).toList ++ found g body ++ found g rest := by
  rw [found_cons, h]
  cases hst : g st <;> simp [hst, found]

theorem found_flat (h : ∀ st ∈ stmts, st.subtree = [st]) : found g stmts = stmts.filterMap g := by
  rw [found, Stmt.preorder_flat h]

theorem found_flatMap (xs : List β) (f : β → List Stmt) :
    found g (xs.flatMap f) = xs.flatMap fun x => found g (f x) := by
  simp [found, Stmt.preorder_eq, List.flatMap_assoc, List.filterMap_flatMap]

end Found

/-- The variables that are declared for a kernel, with their values. -/
def Binding.inits (b : Binding) : List (String × Expr) :=
  (b.localMaps.map fun d => (d.2, Library.tileGetLocalMap tileVar b.position d.1)) ++
    [(b.iterations, Library.tileGetIterations tileVar b.position)]

/-- What precedes a kernel declares its variables, and then takes the size of its loop. -/
theorem prologue_eq : prologue s b =
    .comment ("loop " ++ toString b.position ++ ": " ++ b.loopName) ::
      ((b.inits.map fun x => .declare "iterations_list&" x.1 x.2) ++
        .assign (.ident loopSizeVar) (Library.tileLoopSize tileVar b.position) ::
          if s.timing then [.assign (.ident startVar) Library.timeStamp] else []) := by
  simp [prologue, Binding.inits]

/-- A rule that finds nothing but declarations, kernels and blocks. -/
structure Ignores {α : Type} (g : Stmt → Option α) : Prop where
  blank : g .blank = none
  comment : ∀ text, g (.comment text) = none
  assign : ∀ target value, g (.assign target value) = none
  addAssign : ∀ target value, g (.addAssign target value) = none
  expr : ∀ e, g (.expr e) = none

section Kernels

variable {α : Type} {g : Stmt → Option α}

theorem filterMap_prologue (hg : Ignores g) : (prologue s b).filterMap g =
    b.inits.filterMap fun x => g (.declare "iterations_list&" x.1 x.2) := by
  have hstart : List.filterMap g
      (if s.timing then [.assign (.ident startVar) Library.timeStamp] else []) = [] := by
    cases s.timing <;> simp [hg.assign]
  rw [prologue_eq, List.filterMap_cons_none (hg.comment _), List.filterMap_append,
    List.filterMap_cons_none (hg.assign _ _), hstart, List.filterMap_map, List.append_nil]
  rfl

theorem filterMap_kernelStmts (hg : Ignores g) : (kernelStmts s kernel b).filterMap g =
    (b.inits.filterMap fun x => g (.declare "iterations_list&" x.1 x.2)) ++
      (g (.fragment (kernel b))).toList := by
  have hepilogue : (epilogue s b.position).filterMap g = [] := by
    unfold epilogue
    cases s.timing <;> simp [hg.assign, hg.expr, hg.addAssign]
  rw [kernelStmts, List.filterMap_append, List.filterMap_cons_none hg.blank,
    filterMap_prologue hg]
  cases hkernel : g (.fragment (kernel b)) <;> simp [hkernel, hepilogue]

theorem flat_kernelStmts : ∀ st ∈ kernelStmts s kernel b, st.subtree = [st] := by
  have hstart : ∀ st ∈ if s.timing then [Stmt.assign (.ident startVar) Library.timeStamp] else [],
      st.subtree = [st] := by
    cases s.timing <;> simp [Stmt.subtree]
  have hepilogue : ∀ st ∈ epilogue s b.position, st.subtree = [st] := by
    unfold epilogue
    cases s.timing <;> simp [Stmt.subtree]
  simp only [kernelStmts, prologue_eq, List.forall_mem_append, List.forall_mem_cons,
    List.forall_mem_map]
  exact ⟨⟨rfl, rfl, fun _ _ => rfl, rfl, hstart⟩, rfl, hepilogue⟩

/-- The statements of a tile before those of its kernels. -/
def tileOpening (s : Settings) : List Stmt :=
  [.declare "tile_t*" tileVar (Library.execTileAt execVar "i" "j" regionParam),
    .ifThen (.not (.ident tileVar)) [.continueLoop], .declareBare "int" loopSizeVar] ++
    if s.timing then [.declareBare "double" startVar, .declareBare "double" endVar] else []

theorem tileBody_eq :
    tileBody s bs kernel = tileOpening s ++ bs.flatMap (kernelStmts s kernel) := rfl

/-- **What stands in a tile:** its opening, and for each loop the declarations and the
kernel. -/
theorem found_tileBody (hg : Ignores g) : found g (tileBody s bs kernel) =
    found g (tileOpening s) ++ bs.flatMap fun b =>
      (b.inits.filterMap fun x => g (.declare "iterations_list&" x.1 x.2)) ++
        (g (.fragment (kernel b))).toList := by
  rw [tileBody_eq, found_append, found_flatMap]
  simp only [found_flat flat_kernelStmts, filterMap_kernelStmts hg]

end Kernels

/-! ## The loop over tiles -/

/-- The body of a loop over the tiles of a color. -/
def tileLoop? : Stmt → Option (List Stmt)
  | .forRange _ (.ident count) body => if count = tileCount then some body else none
  | _ => none

/-- The bodies of the loops over tiles, wherever they stand. -/
def tileLoops (stmts : List Stmt) : List (List Stmt) := found tileLoop? stmts

/-- There is no loop in a tile. -/
theorem tileLoops_tileBody : tileLoops (tileBody s bs kernel) = [] := by
  have hopening : found tileLoop? (tileOpening s) = [] := by
    unfold tileOpening
    cases s.timing <;> rfl
  have hrule : Ignores tileLoop? :=
    ⟨rfl, fun _ => rfl, fun _ _ => rfl, fun _ _ => rfl, fun _ => rfl⟩
  have hkernel (b : Binding) :
      (b.inits.filterMap fun x => tileLoop? (.declare "iterations_list&" x.1 x.2)) ++
        (tileLoop? (.fragment (kernel b))).toList = [] :=
    List.append_eq_nil_iff.2 ⟨List.filterMap_eq_nil_iff.2 fun _ _ => rfl, rfl⟩
  rw [tileLoops, found_tileBody hrule, hopening, List.nil_append, List.flatMap_eq_nil_iff]
  exact fun b _ => hkernel b

theorem tileLoops_colorBody (count : Nat) (tiles : Stmt) :
    tileLoops (colorBody s count tiles) = tileLoops [tiles] := by
  unfold colorBody tileLoops
  cases s.execution.isShared with
  | false => rfl
  | true =>
    cases s.timing with
    | false => rfl
    | true =>
      -- the merging of sums is a loop over something else
      have hmerge : found tileLoop? [.pragma "omp critical", .scope [mergeLoop count]] = [] := rfl
      have hleaf {st : Stmt} (hst : st.subtree = [st]) (hnone : tileLoop? st = none)
          (rest : List Stmt) : found tileLoop? (st :: rest) = found tileLoop? rest := by
        rw [found_leaf hst, hnone, Option.toList_none, List.nil_append]
      have hscope (inner : List Stmt) :
          found tileLoop? [.scope inner] = found tileLoop? inner := by
        rw [found_block rfl]
        exact List.append_nil _
      rw [if_pos rfl, if_pos rfl, timedParallel, hleaf rfl rfl, hscope, hleaf rfl rfl,
        hleaf rfl rfl, hleaf rfl rfl, found_cons tiles, hmerge, found_cons tiles]
      rfl

theorem tileLoops_colorLoop :
    tileLoops [colorLoop s bs kernel] = [tileBody s bs kernel] := by
  have hcolors (inner : List Stmt) :
      tileLoops [.forRange "i" (.ident colorCount) inner] = tileLoops inner := by
    rw [tileLoops, found_block rfl]
    exact List.append_nil _
  have hcount (rest : List Stmt) : tileLoops (.declare "const int" tileCount
      (Library.execTilesPerColor execVar "i") :: rest) = tileLoops rest := rfl
  have htiles (inner : List Stmt) :
      tileLoops [.forRange "j" (.ident tileCount) inner] = inner :: tileLoops inner := by
    rw [tileLoops, found_block rfl]
    exact List.append_nil _
  rw [colorLoop, hcolors, hcount, tileLoops_colorBody, htiles, tileLoops_tileBody]

/-- **An executor has one loop over tiles.** -/
theorem tileLoops_program (chain : String) :
    tileLoops (program chain s bs kernel) = [tileBody s bs kernel] := by
  have hopening : tileLoops
      (if s.timing then timingInit bs.length ++ [.blank] else []) = [] := by
    cases s.timing <;> rfl
  have hreport : tileLoops
      (if s.timing then .blank :: timingReport chain bs.length else []) = [] := by
    cases s.timing <;> rfl
  have hwalk : tileLoops [.declare "executor_t*" execVar (.cast "executor_t*" (.ident execParam)),
      .declare "int" colorCount (Library.execNumColors execVar), colorLoop s bs kernel] =
        tileLoops [colorLoop s bs kernel] := rfl
  unfold tileLoops at *
  rw [program, found_append, found_append, hopening, hwalk, hreport, List.nil_append,
    List.append_nil]
  exact tileLoops_colorLoop

/-! ## The names of a tile -/

/-- The names that are declared for a kernel, in their order. -/
def Binding.declared (b : Binding) : List String := b.localMaps.map (·.2) ++ [b.iterations]

theorem Binding.map_fst_inits : b.inits.map (·.1) = b.declared := by
  simp [inits, declared, Function.comp_def]

/-- The names that are declared once in a tile. -/
def sharedNames (s : Settings) : List String :=
  [tileVar, loopSizeVar] ++ if s.timing then [startVar, endVar] else []

/-- The name in a declaration. -/
def name? : Stmt → Option String
  | .decl _ name _ => some name
  | .construct _ name _ => some name
  | _ => none

theorem declaredNames_eq_found (stmts : List Stmt) : declaredNames stmts = found name? stmts := by
  rw [declaredNames, found, List.map_flatMap, List.filterMap_eq_flatMap_toList]
  refine List.flatMap_congr fun st _ => ?_
  cases st <;> rfl

theorem declaredNames_tileBody :
    declaredNames (tileBody s bs kernel) = sharedNames s ++ bs.flatMap Binding.declared := by
  have hopening : found name? (tileOpening s) = sharedNames s := by
    unfold tileOpening sharedNames
    cases s.timing <;> rfl
  have hrule : Ignores name? :=
    ⟨rfl, fun _ => rfl, fun _ _ => rfl, fun _ _ => rfl, fun _ => rfl⟩
  have hkernel (b : Binding) :
      (b.inits.filterMap fun x => name? (.declare "iterations_list&" x.1 x.2)) ++
        (name? (.fragment (kernel b))).toList = b.declared := by
    rw [← Binding.map_fst_inits, ← List.filterMap_eq_map]
    exact List.append_nil _
  rw [declaredNames_eq_found, found_tileBody hrule, hopening]
  simp only [hkernel]

/-- Local names end in the position of their loop. -/
theorem Binding.WellNamed.numbered (h : b.WellNamed) {n : String} (hn : n ∈ b.declared) :
    ∃ x, n = x ++ "_" ++ toString b.position := by
  rcases List.mem_append.1 hn with hn | hn
  · obtain ⟨d, hd, rfl⟩ := List.mem_map.1 hn
    exact ⟨"loc_" ++ d.1, h.locals d hd⟩
  · rw [List.mem_singleton.1 hn, h.iterations]
    exact ⟨"iterations", rfl⟩

theorem Binding.WellNamed.nodup_declared (h : b.WellNamed)
    (hmaps : (b.localMaps.map (·.1)).Nodup) : b.declared.Nodup := by
  have hlocals : b.localMaps.map (·.2) =
      (b.localMaps.map (·.1)).map (localMapName b.position) := by
    rw [List.map_map]
    exact List.map_congr_left h.locals
  rw [Binding.declared, hlocals, List.nodup_append]
  refine ⟨hmaps.map fun m n hmn => localMapName_injective hmn, List.nodup_singleton _, ?_⟩
  intro n hn k hk hnk
  obtain ⟨m, -, rfl⟩ := List.mem_map.1 hn
  rw [List.mem_singleton.1 hk, h.iterations] at hnk
  have htake := take_localMapName b.position m
  rw [hnk, take_iterationsName] at htake
  exact absurd htake (by decide)

/-- **A tile declares every name once.** -/
theorem nodup_declaredNames_tileBody (hbs : Numbered bs)
    (hmaps : ∀ b ∈ bs, (b.localMaps.map (·.1)).Nodup) :
    (declaredNames (tileBody s bs kernel)).Nodup := by
  have hshared : sharedNames s ⊆ fixedNames := by
    unfold sharedNames
    cases s.timing <;> decide
  rw [declaredNames_tileBody, List.nodup_append, List.nodup_flatMap]
  refine ⟨?_, ⟨fun b hb => (hbs.named b hb).nodup_declared (hmaps b hb), ?_⟩, ?_⟩
  · unfold sharedNames
    cases s.timing <;> decide
  · -- a name tells the position of its loop
    rw [List.pairwise_iff_getElem]
    intro i j hi hj hij n hni hnj
    obtain ⟨x, hx⟩ := (hbs.named _ (List.getElem_mem hi)).numbered hni
    obtain ⟨y, hy⟩ := (hbs.named _ (List.getElem_mem hj)).numbered hnj
    have hposition := (numbered_inj (hx.symm.trans hy)).2
    rw [hbs.position (List.getElem?_eq_getElem hi), hbs.position (List.getElem?_eq_getElem hj)]
      at hposition
    omega
  · intro n hn m hm hnm
    obtain ⟨b, hb, hm⟩ := List.mem_flatMap.1 hm
    refine (hbs.named b hb).notMem_names (hshared hn) ?_
    rw [hnm, Binding.names]
    rcases List.mem_append.1 hm with hm | hm
    · exact List.mem_cons_of_mem _ hm
    · exact List.mem_cons.2 (.inl (List.mem_singleton.1 hm))

theorem map_fst_localMaps (l : Loop) (i : Nat) :
    (bind l i).localMaps.map (·.1) = l.indirectMaps := by
  simp [bind, Function.comp_def]

theorem nodup_localMaps : ∀ b ∈ bindings c, (b.localMaps.map (·.1)).Nodup := by
  intro b hb
  obtain ⟨l, -, rfl⟩ := List.mem_map.1 hb
  rw [map_fst_localMaps]
  exact nodup_indirectMaps l.1

/-! ## Values and kernels -/

/-- The type, the name and the value of a declaration with a value. -/
def init? : Stmt → Option (String × String × Expr)
  | .decl type name (some e) => some (type, name, e)
  | _ => none

/-- The declarations with a value among statements and the statements inside them. -/
def initialised (stmts : List Stmt) : List (String × String × Expr) := found init? stmts

theorem initialised_tileBody : initialised (tileBody s bs kernel) =
    ("tile_t*", tileVar, Library.execTileAt execVar "i" "j" regionParam) ::
      bs.flatMap fun b => b.inits.map fun x => ("iterations_list&", x) := by
  have hopening : found init? (tileOpening s) =
      [("tile_t*", tileVar, Library.execTileAt execVar "i" "j" regionParam)] := by
    unfold tileOpening
    cases s.timing <;> rfl
  have hrule : Ignores init? :=
    ⟨rfl, fun _ => rfl, fun _ _ => rfl, fun _ _ => rfl, fun _ => rfl⟩
  have hkernel (b : Binding) :
      (b.inits.filterMap fun x => init? (.declare "iterations_list&" x.1 x.2)) ++
        (init? (.fragment (kernel b))).toList = b.inits.map fun x => ("iterations_list&", x) := by
    rw [← List.filterMap_eq_map]
    exact List.append_nil _
  rw [initialised, found_tileBody hrule, hopening, List.singleton_append]
  simp only [hkernel]

/-- The text of a kernel. -/
def fragment? : Stmt → Option String
  | .fragment text => some text
  | _ => none

theorem ignores_fragment : Ignores fragment? :=
  ⟨rfl, fun _ => rfl, fun _ _ => rfl, fun _ _ => rfl, fun _ => rfl⟩

theorem kernels_prologue : (prologue s b).filterMap fragment? = [] := by
  rw [filterMap_prologue ignores_fragment]
  exact List.filterMap_eq_nil_iff.2 fun _ _ => rfl

theorem kernels_flatMap :
    (bs.flatMap (kernelStmts s kernel)).filterMap fragment? = bs.map kernel := by
  have hkernel (b : Binding) : (kernelStmts s kernel b).filterMap fragment? = [kernel b] := by
    rw [filterMap_kernelStmts ignores_fragment, ← filterMap_prologue (s := s) ignores_fragment,
      kernels_prologue]
    rfl
  rw [List.filterMap_flatMap, List.map_eq_flatMap]
  simp only [hkernel]

/-- A tile, cut at the kernel of a loop. -/
theorem tileBody_split (s : Settings) (kernel : Binding → String) {i : Nat}
    (hb : bs[i]? = some b) : ∃ before after,
    tileBody s bs kernel = (before ++ prologue s b) ++ .fragment (kernel b) :: after ∧
      before.filterMap fragment? = (bs.take i).map kernel := by
  obtain ⟨hi, rfl⟩ := List.getElem?_eq_some_iff.1 hb
  have hopening : (tileOpening s).filterMap fragment? = [] := by
    unfold tileOpening
    cases s.timing <;> rfl
  refine ⟨tileOpening s ++ (bs.take i).flatMap (kernelStmts s kernel) ++ [.blank],
    epilogue s bs[i].position ++ (bs.drop (i + 1)).flatMap (kernelStmts s kernel), ?_, ?_⟩
  · have hsplit : bs.flatMap (kernelStmts s kernel) =
        (bs.take i).flatMap (kernelStmts s kernel) ++
          (kernelStmts s kernel bs[i] ++ (bs.drop (i + 1)).flatMap (kernelStmts s kernel)) := by
      rw [← List.flatMap_cons, ← List.drop_eq_getElem_cons hi, ← List.flatMap_append,
        List.take_append_drop]
    rw [tileBody_eq, hsplit, kernelStmts]
    simp
  · rw [List.filterMap_append, List.filterMap_append, hopening, kernels_flatMap]
    simp [fragment?]

/-! ## Variables that a kernel finds -/

/-- A variable that a kernel finds: it is declared once in the tile, it is the only one with
its value, and its declaration stands before the kernel, which comes after the kernels of
earlier loops. -/
structure Given (tile : List Stmt) (earlier : List String) (kernel var : String) (value : Expr) :
    Prop where
  once : (declaredNames tile).count var = 1
  only : ∀ type name, (type, name, value) ∈ initialised tile ↔
    type = "iterations_list&" ∧ name = var
  before : ∃ before after, tile = before ++ .fragment kernel :: after ∧
    before.filterMap fragment? = earlier ∧ .declare "iterations_list&" var value ∈ before

section Given

variable {var : String} {value : Expr}

/-- Values tell the variables of all loops apart. -/
theorem Binding.WellNamed.inits_unique {b' : Binding} {var' : String} (h : b.WellNamed)
    (h' : b'.WellNamed) (hv : (var, value) ∈ b.inits) (hv' : (var', value) ∈ b'.inits) :
    var' = var := by
  simp only [inits, List.mem_append, List.mem_map, List.mem_singleton, Prod.mk.injEq] at hv hv'
  -- the function of the call, its position and its map are those of the variable
  rcases hv with ⟨d, hd, rfl, rfl⟩ | ⟨rfl, rfl⟩ <;> rcases hv' with ⟨d', hd', rfl, heq⟩ | ⟨rfl, heq⟩ <;>
    simp [Library.tileGetLocalMap, Library.tileGetIterations, Expr.callName] at heq
  · rw [h.locals d hd, h'.locals d' hd', heq.1, heq.2]
  · rw [h.iterations, h'.iterations, heq]

/-- **What a binding lists is given to its kernel.** -/
theorem given_of_mem_inits (hbs : Numbered bs)
    (hmaps : ∀ b ∈ bs, (b.localMaps.map (·.1)).Nodup) {i : Nat} (hb : bs[i]? = some b)
    (h : (var, value) ∈ b.inits) :
    Given (tileBody s bs kernel) ((bs.take i).map kernel) (kernel b) var value := by
  have hmem : b ∈ bs := List.mem_of_getElem? hb
  constructor
  case once =>
    refine List.count_eq_one_of_mem (nodup_declaredNames_tileBody hbs hmaps) ?_
    rw [declaredNames_tileBody]
    refine List.mem_append_right _ (List.mem_flatMap.2 ⟨b, hmem, ?_⟩)
    rw [← Binding.map_fst_inits]
    exact List.mem_map.2 ⟨_, h, rfl⟩
  case only =>
    intro type name
    rw [initialised_tileBody, List.mem_cons, List.mem_flatMap]
    constructor
    · rintro (hopening | ⟨b', hb', hmem'⟩)
      · simp only [Prod.mk.injEq] at hopening
        rw [hopening.2.2] at h
        simp [Binding.inits, Library.tileGetLocalMap, Library.tileGetIterations,
          Library.execTileAt, Expr.callName] at h
      · obtain ⟨x, hx, heq⟩ := List.mem_map.1 hmem'
        obtain ⟨rfl, rfl⟩ := Prod.mk.inj heq
        exact ⟨rfl, (hbs.named b hmem).inits_unique (hbs.named b' hb') h hx⟩
    · rintro ⟨rfl, rfl⟩
      exact .inr ⟨b, hmem, List.mem_map.2 ⟨_, h, rfl⟩⟩
  case before =>
    obtain ⟨before, after, htile, hearlier⟩ := tileBody_split s kernel hb
    refine ⟨before ++ prologue s b, after, htile, ?_, List.mem_append_right _ ?_⟩
    · rw [List.filterMap_append, hearlier, kernels_prologue, List.append_nil]
    · rw [prologue_eq]
      exact List.mem_cons_of_mem _ (List.mem_append_left _ (List.mem_map.2 ⟨_, h, rfl⟩))

end Given

/-! ## Bindings that fit -/

/-- The binding of a loop at a position of a chain fits: its maps are those of the
descriptors, in the order of their first use, and maps of the inspector; it resolves what the
descriptors refer to and no other map; and each name that it gives is a variable of the tile
with the value that it should have. -/
structure Fits (c : Chain) (s : Settings) (tile : List Stmt) (earlier : List String)
    (kernel : String) (l : Loop) (i : Nat) (b : Binding) : Prop where
  keys : ∀ m, m ∈ b.localMaps.map (·.1) ↔ .map m ∈ l.descriptors.map (·.map)
  nodup : (b.localMaps.map (·.1)).Nodup
  order : (b.localMaps.map (·.1)).Pairwise fun m n =>
    (l.descriptors.map (·.map)).idxOf (.map m) < (l.descriptors.map (·.map)).idxOf (.map n)
  known : ∃ rows, (Inspector.arguments c s)[1]? = some (.maps rows) ∧
    ∀ m ∈ b.localMaps.map (·.1), m ∈ rows.map (·.name)
  resolved : ∀ d ∈ l.descriptors, (b.resolve? d.map).isSome
  unresolved : ∀ m, .map m ∉ l.descriptors.map (·.map) → b.resolve? (.map m) = none
  iterations : ∃ var, b.resolve? .direct = some var ∧
    Given tile earlier kernel var (.callName "tile_get_iterations" [.ident "tile", .int i])
  locals : ∀ m, .map m ∈ l.descriptors.map (·.map) → ∃ var, b.resolve? (.map m) = some var ∧
    Given tile earlier kernel var
      (.callName "tile_get_local_map" [.ident "tile", .int i, .str m])

theorem mem_indirectMaps_iff {l : Loop} {m : String} :
    m ∈ l.indirectMaps ↔ .map m ∈ l.descriptors.map (·.map) := by
  rw [mem_indirectMaps, List.mem_map]

/-- A binding resolves the maps of its loop and no others. -/
theorem resolve_bind (l : Loop) (i : Nat) (m : String) : (bind l i).resolve? (.map m) =
    if m ∈ l.indirectMaps then some (localMapName i m) else none := by
  split
  · next h => exact List.lookup_graph _ h
  · next h =>
    refine List.lookup_eq_none_iff.2 fun d hd => ?_
    obtain ⟨n, hn, rfl⟩ := List.mem_map.1 hd
    simpa using fun heq : m = n => h (heq ▸ hn)

theorem getElem?_bindings {i : Nat} {l : Loop} (h : c.loops[i]? = some l) :
    (bindings c)[i]? = some (bind l i) := by
  simp [bindings, List.getElem?_zipIdx, h]

theorem fits_bind (hc : c.Resolved) {i : Nat} {l : Loop} (h : c.loops[i]? = some l) :
    Fits c s (tileBody s (bindings c) kernel) (((bindings c).take i).map kernel)
      (kernel (bind l i)) l i (bind l i) := by
  have hgiven {var : String} {value : Expr} (hvar : (var, value) ∈ (bind l i).inits) :
      Given (tileBody s (bindings c) kernel) (((bindings c).take i).map kernel)
        (kernel (bind l i)) var value :=
    given_of_mem_inits (numbered_bindings c) nodup_localMaps (getElem?_bindings h) hvar
  have hlocal {m : String} (hm : m ∈ l.indirectMaps) :
      (bind l i).resolve? (.map m) = some (localMapName i m) := by
    rw [resolve_bind, if_pos hm]
  constructor
  case keys =>
    intro m
    rw [map_fst_localMaps, mem_indirectMaps_iff]
  case nodup =>
    rw [map_fst_localMaps]
    exact nodup_indirectMaps l
  case order =>
    rw [map_fst_localMaps]
    exact sorted_indirectMaps l
  case known =>
    refine ⟨_, rfl, fun m hm => ?_⟩
    rw [map_fst_localMaps, mem_indirectMaps] at hm
    obtain ⟨d, hd, hmap⟩ := hm
    rw [List.map_map]
    exact hc.accesses l (List.mem_of_getElem? h) d hd m hmap
  case resolved =>
    intro d hd
    cases hmap : d.map with
    | direct => rfl
    | map m => rw [hlocal (mem_indirectMaps.2 ⟨d, hd, hmap⟩)]; rfl
  case unresolved =>
    intro m hm
    rw [resolve_bind, if_neg (mt mem_indirectMaps_iff.1 hm)]
  case iterations => exact ⟨_, rfl, hgiven (List.mem_append_right _ (List.mem_singleton.2 rfl))⟩
  case locals =>
    intro m hm
    have hm := mem_indirectMaps_iff.2 hm
    refine ⟨_, hlocal hm, hgiven (List.mem_append_left _ ?_)⟩
    exact List.mem_map.2 ⟨(m, localMapName i m), List.mem_map.2 ⟨m, hm, rfl⟩, rfl⟩

/-- **Bindings fit the descriptors, the inspector and the tile.** Take a chain that calls
lead to, settings and kernels made from bindings. If the chain passes the checks, then an
executor is generated with the bindings that the checks give, the program that is made from them
has one loop over tiles, and for each loop of the chain the binding fits. -/
theorem bindings_fit (name : String) (calls : List Chain.Call) (s : Settings)
    (kernel : Binding → String) (bs : List Binding)
    (h : check ((Chain.new name).afterAll calls) = .ok bs) :
    ∃ e tile, generateWith ((Chain.new name).afterAll calls) s kernel = .ok e ∧
      e.bindings = bs ∧
      e.source = render (program ((Chain.new name).afterAll calls).name s bs kernel) ∧
      tileLoops (program ((Chain.new name).afterAll calls).name s bs kernel) = [tile] ∧
      bs.length = ((Chain.new name).afterAll calls).loops.length ∧
      ∀ i l, ((Chain.new name).afterAll calls).loops[i]? = some l → ∃ b, bs[i]? = some b ∧
        Fits ((Chain.new name).afterAll calls) s tile ((bs.take i).map kernel) (kernel b) l i b := by
  obtain ⟨hresolved, hbs⟩ := check_eq_ok h
  refine ⟨_, _, generateWith_of_check h s kernel, rfl, rfl, tileLoops_program _, ?_,
    fun i l hl => ?_⟩
  · rw [hbs, length_bindings]
  · rw [hbs]
    exact ⟨_, getElem?_bindings hl, fits_bind hresolved hl⟩

theorem bindings_fit_edges : ∃ bs e tile,
    check ((Chain.new "airfoil").afterAll Inspector.edgeCalls) = .ok bs ∧
      generateWith ((Chain.new "airfoil").afterAll Inspector.edgeCalls) Inspector.edgeSettings
        Binding.loopName = .ok e ∧
      e.bindings = bs ∧
      e.source = render (program ((Chain.new "airfoil").afterAll Inspector.edgeCalls).name
        Inspector.edgeSettings bs Binding.loopName) ∧
      tileLoops (program ((Chain.new "airfoil").afterAll Inspector.edgeCalls).name
        Inspector.edgeSettings bs Binding.loopName) = [tile] ∧
      ∀ i l, ((Chain.new "airfoil").afterAll Inspector.edgeCalls).loops[i]? = some l →
        ∃ b, bs[i]? = some b ∧ Fits ((Chain.new "airfoil").afterAll Inspector.edgeCalls)
          Inspector.edgeSettings tile ((bs.take i).map Binding.loopName) b.loopName l i b := by
  have hcheck : check ((Chain.new "airfoil").afterAll Inspector.edgeCalls) =
      .ok (bindings ((Chain.new "airfoil").afterAll Inspector.edgeCalls)) := by cbv
  obtain ⟨e, tile, he, hbindings, hsource, htile, -, hfits⟩ :=
    bindings_fit "airfoil" Inspector.edgeCalls Inspector.edgeSettings Binding.loopName _ hcheck
  exact ⟨_, e, tile, hcheck, he, hbindings, hsource, htile, hfits⟩

end Executor

end SparseTiling
