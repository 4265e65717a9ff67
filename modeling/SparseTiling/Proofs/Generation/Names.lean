import SparseTiling.Proofs.Executor.Bindings
import SparseTiling.Proofs.Inspector.Handed

/-!
# Names that carry a position

All loops of a chain share the block of a tile and the body of an inspector. Their names
there end in the position of the loop, and that keeps them apart: whatever loops and maps are
called, also with underscores and digits of their own.

* `loopNames`: the names under which an inspector adds its loops.
* `variables_descriptors`, `loopNames_body`: the names of an inspector, one for each loop.
* `TileNamed`: the names of a tile, and that they are distinct.
* `emitted_names_distinct`: no name of a tile and no name of a loop is used twice.
-/

namespace SparseTiling

open Code

/-- The name for the library tells the position of a loop. -/
theorem runtimeName_inj {l m : Loop} {i j : Nat} (h : l.runtimeName i = m.runtimeName j) :
    i = j := by
  have hsplit : ∀ (k : Loop) (n : Nat),
      k.runtimeName n = k.name ++ "_Loop" ++ "_" ++ toString n := by
    intro k n
    rw [Loop.runtimeName, show "_Loop_" = "_Loop" ++ "_" from rfl, ← String.append_assoc]
  rw [hsplit, hsplit] at h
  exact (numbered_inj h).2

namespace Inspector

variable {c : Chain} {s : Settings}

/-! ## The names of an inspector -/

/-- The name under which a loop is added. -/
def loopName? : Occurrence → Option String
  | ⟨_, _, .call (.ident function) (_ :: .str name :: _)⟩ =>
    if function = "insp_add_parloop" then some name else none
  | _ => none

/-- The names under which loops are added, one after another. -/
def loopNames (stmts : List Stmt) : List String :=
  (Stmt.occurrencesAll [] stmts).filterMap loopName?

/-- The descriptor lists of an inspector are those of its loops. -/
theorem declaring_descriptors (seed : Nat) :
    declaring "desc_list" (body c s seed) = descDecls c := by
  have hmesh : (meshMapStmts c s).filter (declares "desc_list") = [] := by
    rw [meshMapStmts, List.filter_append, filter_map_none fun _ _ => rfl,
      filter_map_none fun _ _ => rfl, List.append_nil]
  have hparts : (partitioningStmts c).filter (declares "desc_list") = [] := by
    rw [partitioningStmts, List.filter_append, List.filter_flatMap,
      filter_map_none fun _ _ => rfl, List.append_nil]
    exact List.flatMap_eq_nil_iff.2 fun _ _ => rfl
  rw [declaring_body (.inr (.inr rfl)), filter_descDecls, hmesh, hparts, List.append_nil,
    List.append_nil]

theorem variables_descriptors (seed : Nat) :
    declaredNames (declaring "desc_list" (body c s seed)) = listVars c := by
  rw [declaring_descriptors]
  exact declaredNames_map _ _ (fun _ => rfl) fun _ => rfl

theorem loopName?_calling {function : String} (h : function ≠ "insp_add_parloop")
    (var : Option String) (args : List Expr) : loopName? (calling var function args) = none := by
  unfold calling loopName?
  split
  · next heq =>
    cases heq
    exact if_neg h
  · rfl

/-- An inspector adds its loops one after another, each under its own name. -/
theorem loopNames_body (seed : Nat) : loopNames (body c s seed) =
    c.loops.zipIdx.map fun l => l.1.runtimeName l.2 := by
  have hreport : (reportCalls s).filterMap loopName? = [] := by
    unfold reportCalls
    cases s.debug <;> cases s.coordinates <;> rfl
  have hloops : (loopCalls c).filterMap loopName? =
      c.loops.zipIdx.map fun l => l.1.runtimeName l.2 := by
    rw [loopCalls, List.filterMap_map]
    exact congrFun List.filterMap_eq_map _
  have hbefore : ∀ o ∈ setCalls c ++ mapCalls c ++ descCalls c ++ meshCalls c s ++ partCalls c ++
      [initCall c s], loopName? o = none := by
    simp only [setCalls, mapCalls, descCalls, meshCalls, partCalls, initCall,
      List.forall_mem_append, List.forall_mem_cons, List.forall_mem_map, List.forall_mem_flatMap]
    have hcreating (list : String) : loopName? (creating list) = none := rfl
    have hinserting (list item : String) : loopName? (inserting list item) = none := rfl
    simp (disch := decide) [loopName?_calling, hcreating, hinserting]
  have hrun : [runCall].filterMap loopName? = [] := rfl
  have hfinish : finishCalls.filterMap loopName? = [] := rfl
  rw [loopNames, occurrencesAll_body, protocol, preparation, List.filterMap_append,
    List.filterMap_append, List.filterMap_append, List.filterMap_append,
    List.filterMap_eq_nil_iff.2 hbefore, hloops, hrun, hreport, hfinish]
  simp

theorem nodup_loopNames (seed : Nat) : (loopNames (body c s seed)).Nodup := by
  rw [loopNames_body]
  exact nodup_map_zipIdx (fun _ _ h => runtimeName_inj h) c.loops

end Inspector

/-! ## The names of a tile -/

namespace Executor

variable {c : Chain} {s : Settings}

/-- An executor of a chain, with kernels made from its bindings or given one by one. -/
def Emits (c : Chain) (s : Settings) (e : Emission) : Prop :=
  (∃ kernel, generateWith c s kernel = .ok e) ∨ ∃ kernels, generate c s kernels = .ok e

/-- What is emitted is made from the bindings of a chain whose names all refer to something. -/
theorem Emits.eq_emit {e : Emission} (h : Emits c s e) :
    c.Resolved ∧ ∃ kernel, e = emit c s (bindings c) kernel := by
  rcases h with ⟨kernel, h⟩ | ⟨kernels, h⟩
  · obtain ⟨hresolved, rfl⟩ := generateWith_eq_ok h
    exact ⟨hresolved, kernel, rfl⟩
  · obtain ⟨bs, hcheck, h⟩ := bind_eq_ok h
    obtain ⟨hresolved, rfl⟩ := check_eq_ok hcheck
    split at h
    · exact ⟨hresolved, _, (Except.ok.inj h).symm⟩
    · cases h

/-- Either way, the program of an executor is made from the bindings of its chain. -/
theorem Emits.source {e : Emission} (h : Emits c s e) :
    ∃ kernel, e.source = render (program c.name s (bindings c) kernel) := by
  obtain ⟨-, kernel, rfl⟩ := h.eq_emit
  exact ⟨kernel, rfl⟩

theorem flatMap_declared : (bindings c).flatMap Binding.declared =
    c.loops.zipIdx.flatMap fun l =>
      (l.1.indirectMaps.map fun m => localMapName l.2 m) ++ [iterationsName l.2] := by
  simp [bindings, bind, Binding.declared, List.flatMap_map, Function.comp_def]

/-- The program has one loop over tiles. What the tile declares are the tile and its size, the
clock readings if time is taken, and for each loop its local maps and iterations, under names that
are distinct. -/
def TileNamed (c : Chain) (s : Settings) (program : List Stmt) : Prop :=
  ∃ tile, tileLoops program = [tile] ∧ (declaredNames tile).Nodup ∧
    declaredNames tile =
      ["tile", "tileLoopSize"] ++ (if s.timing then ["start", "end"] else []) ++
        c.loops.zipIdx.flatMap fun l =>
          (l.1.indirectMaps.map fun m => "loc_" ++ m ++ "_" ++ toString l.2) ++
            ["iterations_" ++ toString l.2]

theorem tileNamed_program (kernel : Binding → String) :
    TileNamed c s (program c.name s (bindings c) kernel) := by
  refine ⟨_, tileLoops_program _, ?_, ?_⟩
  · exact nodup_declaredNames_tileBody (numbered_bindings c) nodup_localMaps
  · rw [declaredNames_tileBody, flatMap_declared]
    rfl

end Executor

/-- **Names in emitted code never clash.** For every chain and all settings: the names that the
tile of an executor declares are distinct, whether its kernels are made from bindings or given one
by one, and so are the descriptor lists of an inspector and the names under which it adds its
loops. -/
theorem emitted_names_distinct (c : Chain) (s : Settings) :
    (∀ kernel e, Executor.generateWith c s kernel = .ok e →
      e.source = render (Executor.program c.name s (Executor.bindings c) kernel) ∧
      Executor.TileNamed c s (Executor.program c.name s (Executor.bindings c) kernel)) ∧
    (∀ kernels e, Executor.generate c s kernels = .ok e →
      e.source = render (Executor.programOf c s kernels) ∧
      Executor.TileNamed c s (Executor.programOf c s kernels)) ∧
    ∀ e, Inspector.generate c s = .ok e → ∃ program body,
      Inspector.programOf c s = .ok program ∧ e.source = render program ∧
      Inspector.bodyOf program = some body ∧
      (declaredNames (Inspector.declaring "desc_list" body)).Nodup ∧
      declaredNames (Inspector.declaring "desc_list" body) =
        (c.loops.zipIdx.map fun l => l.1.name ++ "_Desc_" ++ toString l.2) ∧
      (Inspector.loopNames body).Nodup ∧
      Inspector.loopNames body =
        c.loops.zipIdx.map fun l => l.1.name ++ "_Loop_" ++ toString l.2 := by
  refine ⟨fun kernel e he => ?_, fun kernels e he => ?_, fun e he => ?_⟩
  · obtain ⟨-, rfl⟩ := Executor.generateWith_eq_ok he
    exact ⟨rfl, Executor.tileNamed_program kernel⟩
  · exact ⟨(Executor.generate_eq_ok he).1, Executor.tileNamed_program _⟩
  · obtain ⟨seed, hcheck, he⟩ := bind_eq_ok he
    obtain rfl := Except.ok.inj he
    refine ⟨_, _, Inspector.programOf_of_check hcheck, rfl, Inspector.bodyOf_program seed, ?_,
      Inspector.variables_descriptors seed, Inspector.nodup_loopNames seed,
      Inspector.loopNames_body seed⟩
    rw [Inspector.variables_descriptors]
    exact Inspector.nodup_listVars

/-- Two loops of one name, which use one map. -/
theorem emitted_names_distinct_edges : ∃ e i inspector body,
    Executor.generateWith ((Chain.new "airfoil").afterAll Inspector.edgeCalls)
      Inspector.edgeSettings Executor.Binding.loopName = .ok e ∧
    e.source = render (Executor.program ((Chain.new "airfoil").afterAll Inspector.edgeCalls).name
      Inspector.edgeSettings
      (Executor.bindings ((Chain.new "airfoil").afterAll Inspector.edgeCalls))
      Executor.Binding.loopName) ∧
    Executor.TileNamed ((Chain.new "airfoil").afterAll Inspector.edgeCalls) Inspector.edgeSettings
      (Executor.program ((Chain.new "airfoil").afterAll Inspector.edgeCalls).name
        Inspector.edgeSettings
        (Executor.bindings ((Chain.new "airfoil").afterAll Inspector.edgeCalls))
        Executor.Binding.loopName) ∧
    Executor.TileNamed ((Chain.new "airfoil").afterAll Inspector.edgeCalls) Inspector.edgeSettings
      (Executor.programOf ((Chain.new "airfoil").afterAll Inspector.edgeCalls)
        Inspector.edgeSettings ["flux();", "border();"]) ∧
    Inspector.generate ((Chain.new "airfoil").afterAll Inspector.edgeCalls)
      Inspector.edgeSettings = .ok i ∧
    Inspector.programOf ((Chain.new "airfoil").afterAll Inspector.edgeCalls)
      Inspector.edgeSettings = .ok inspector ∧
    i.source = render inspector ∧ Inspector.bodyOf inspector = some body ∧
    (declaredNames (Inspector.declaring "desc_list" body)).Nodup ∧
    (Inspector.loopNames body).Nodup := by
  have hcheck : Executor.check ((Chain.new "airfoil").afterAll Inspector.edgeCalls) =
      .ok (Executor.bindings ((Chain.new "airfoil").afterAll Inspector.edgeCalls)) := by cbv
  have hinspect : Inspector.check ((Chain.new "airfoil").afterAll Inspector.edgeCalls)
      Inspector.edgeSettings = .ok 1 := by cbv
  have he := Executor.generateWith_of_check hcheck Inspector.edgeSettings Executor.Binding.loopName
  obtain ⟨e', he'⟩ : ∃ e', Executor.generate ((Chain.new "airfoil").afterAll Inspector.edgeCalls)
      Inspector.edgeSettings ["flux();", "border();"] = .ok e' :=
    Executor.generate_of_check hcheck _ rfl
  obtain ⟨i, hi, -⟩ := Inspector.generate_of_check hinspect
  obtain ⟨hwith, hgiven, hinspector⟩ := emitted_names_distinct
    ((Chain.new "airfoil").afterAll Inspector.edgeCalls) Inspector.edgeSettings
  obtain ⟨hsource, hnamed⟩ := hwith _ _ he
  obtain ⟨inspector, body, hprogram, hisource, hbody, hlists, -, hloops, -⟩ := hinspector i hi
  exact ⟨_, i, inspector, body, he, hsource, hnamed, (hgiven _ e' he').2, hi, hprogram, hisource,
    hbody, hlists, hloops⟩

end SparseTiling
