import SparseTiling.Executor
import SparseTiling.Inspector
import SparseTiling.Proofs.Inspector.Lossless

/-!
# What generated code depends on

Sizes, indices, coordinates, tile size and rank reach the code when it runs, so the code can be
compiled once for all meshes of one shape and all processes. To say so, they are erased: what is
left of a chain and of settings is their shape.

* `Chain.shape`, `Settings.shape`: chains and settings without the data of a mesh.
* `check_shape`, `program_shape`, `skipped_shape`: an inspector is checked, written and warned
  about by shapes alone.
* `Executor.generate_congr`: the settings that executors look at.
* `generate_independent_of_data`: what inspectors and executors do not depend on.
-/

namespace SparseTiling

/-! ## Shapes -/

/-- The set without its sizes. -/
def MeshSet.shape (s : MeshSet) : MeshSet := { s with core := 0, exec := 0, nonexec := 0 }

/-- The map without its indices. -/
def MeshMap.shape (m : MeshMap) : MeshMap := { m with values := [] }

/-- The partitioning without the parts of its elements. -/
def Partitioning.shape (p : Partitioning) : Partitioning := { p with values := [] }

/-- The field without its coordinates. -/
def CoordinateField.shape (f : CoordinateField) : CoordinateField := { f with values := [] }

/-- The chain without the data of a mesh and a process. -/
def Chain.shape (c : Chain) : Chain :=
  { c with
    sets := c.sets.map (·.shape)
    maps := c.maps.map (·.shape)
    partitionings := c.partitionings.map (·.shape)
    tileSize := 0
    rank := 0 }

/-- The settings without the data of a mesh. -/
def Settings.shape (s : Settings) : Settings :=
  { s with
    coordinates := s.coordinates.map (·.shape)
    meshMaps := s.meshMaps.map (·.shape) }

variable {c c' : Chain} {s s' : Settings}

/-! ## Checks -/

namespace Chain

@[simp] theorem hasSet_shape : c.shape.hasSet = c.hasSet := by
  funext name
  simp [hasSet, shape, Function.comp_def, MeshSet.shape]

@[simp] theorem hasSets_shape : c.shape.hasSets = c.hasSets := by
  funext names
  rw [hasSets, hasSets, hasSet_shape]

@[simp] theorem isSome_findMap?_shape (name : String) :
    (c.shape.findMap? name).isSome = (c.findMap? name).isSome := by
  simp [findMap?, shape, MeshMap.shape]

theorem ensureConstructed_shape : c.shape.ensureConstructed = c.ensureConstructed := by
  simp [ensureConstructed, isConstructed, shape]

theorem checkMap_shape (m : MeshMap) : c.shape.checkMap m.shape = c.checkMap m := by
  rw [checkMap, checkMap, hasSet_shape]
  rfl

theorem checkLoop_shape : c.shape.checkLoop = c.checkLoop := by
  have hdescriptor : c.shape.checkDescriptor = c.checkDescriptor := by
    funext loop d
    simp only [checkDescriptor, isSome_findMap?_shape]
  funext l position
  rw [checkLoop, checkLoop, hasSet_shape, hdescriptor]

/-- The same references are in order, and the same one is reported otherwise. -/
theorem checkReferences_shape : c.shape.checkReferences = c.checkReferences := by
  have hmaps : (c.maps.map (·.shape)).forM c.shape.checkMap = c.maps.forM c.checkMap := by
    simp only [List.forM_eq_forM, List.forM_map, checkMap_shape]
  unfold checkReferences
  rw [checkLoop_shape]
  exact congrArg (· >>= _) hmaps

end Chain

namespace Inspector

theorem checkCoordinates_shape : checkCoordinates c.shape s.shape = checkCoordinates c s := by
  unfold checkCoordinates
  rw [Chain.hasSet_shape]
  cases hfield : s.coordinates with
  | none => simp [Settings.shape, hfield]
  | some field => simp [Settings.shape, hfield, CoordinateField.shape, Chain.shape]

/-- **Inspectors are checked by shapes alone.** -/
theorem check_shape : check c.shape s.shape = check c s := by
  rw [check, check, Chain.ensureConstructed_shape, Chain.checkReferences_shape,
    checkCoordinates_shape]
  rfl

/-! ## Statements of an inspector -/

/-- The same mesh maps are used, from the same rows. -/
theorem meshMapRows_shape :
    meshMapRows c.shape s.shape = (meshMapRows c s).map (Prod.map MeshMap.shape id) := by
  unfold meshMapRows
  rw [Chain.hasSets_shape]
  change (if s.partitioning.usesTopology then _ else _) = _
  split
  · simp only [Settings.shape, List.zipIdx_map, List.filter_map]
    rfl
  · rfl

theorem partitioningRows_shape :
    partitioningRows c.shape = (partitioningRows c).map (Prod.map Partitioning.shape id) := by
  unfold partitioningRows
  rw [Chain.hasSet_shape]
  simp only [Chain.shape, List.zipIdx_map, List.filter_map]
  rfl

/-- The same warnings are given. -/
theorem skipped_shape : skipped c.shape s.shape = skipped c s := by
  have hmaps : (skippedMeshMaps c.shape s.shape).map meshMapWarning =
      (skippedMeshMaps c s).map meshMapWarning := by
    unfold skippedMeshMaps
    rw [Chain.hasSets_shape]
    change (if s.partitioning.usesTopology then _ else _ : List MeshMap).map _ = _
    split
    · simp only [Settings.shape, List.filter_map, List.map_map]
      rfl
    · rfl
  have hpartitionings : (skippedPartitionings c.shape).map partitioningWarning =
      (skippedPartitionings c).map partitioningWarning := by
    unfold skippedPartitionings
    rw [Chain.hasSet_shape]
    simp only [Chain.shape, List.filter_map, List.map_map]
    rfl
  rw [skipped, skipped, hmaps, hpartitionings]

theorem setDecls_shape : setDecls c.shape = setDecls c := by
  simp only [setDecls, Chain.shape, List.zipIdx_map, List.map_map]
  rfl

theorem mapDecls_shape : mapDecls c.shape = mapDecls c := by
  simp only [mapDecls, Chain.shape, List.zipIdx_map, List.map_map]
  rfl

theorem meshMapStmts_shape : meshMapStmts c.shape s.shape = meshMapStmts c s := by
  simp only [meshMapStmts, meshMapRows_shape, List.map_map]
  rfl

theorem partitioningStmts_shape : partitioningStmts c.shape = partitioningStmts c := by
  simp only [partitioningStmts, partitioningRows_shape, List.map_map, List.flatMap_map]
  rfl

theorem reportStmts_shape : reportStmts s.shape = reportStmts s := by
  unfold reportStmts
  cases hfield : s.coordinates with
  | none => simp [Settings.shape, hfield]
  | some field =>
    simp only [Settings.shape, hfield]
    rfl

theorem params_shape : params c.shape = params c := by
  simp [params, Chain.shape]

/-- **Inspectors are written by shapes alone.** -/
theorem program_shape (seed : Nat) : program c.shape s.shape seed = program c s seed := by
  have hbody : body c.shape s.shape seed = body c s seed := by
    unfold body initStmts
    rw [setDecls_shape, mapDecls_shape, meshMapStmts_shape, partitioningStmts_shape,
      reportStmts_shape]
    rfl
  unfold program signature
  rw [hbody, params_shape]

/-- What is generated, but for the arguments that describe the data. -/
def Emission.code (e : Emission) : String × Nat × List Warning := (e.source, e.seed, e.warnings)

theorem generate_shape :
    (generate c.shape s.shape).map Emission.code = (generate c s).map Emission.code := by
  unfold generate
  rw [check_shape]
  cases check c s with
  | error e => simp only [bind, Except.bind, Except.map]
  | ok seed =>
    simp only [bind, Except.bind, pure, Except.pure, Except.map, Emission.code, program_shape,
      skipped_shape]

end Inspector

/-! ## Executors -/

namespace Executor

theorem check_shape : check c.shape = check c := by
  rw [check, check, Chain.ensureConstructed_shape, Chain.checkReferences_shape]
  rfl

/-- Executors are written from the name of the chain, the mode of execution and whether loops are
timed, besides the bindings. -/
theorem emit_congr (hname : c.name = c'.name) (hexecution : s.execution = s'.execution)
    (htiming : s.timing = s'.timing) : emit c s = emit c' s' := by
  obtain ⟨execution, coloring, partitioning, debug, coordinates, meshMaps, timing, _⟩ := s
  obtain rfl : execution = s'.execution := hexecution
  obtain rfl : timing = s'.timing := htiming
  funext bs kernel
  unfold emit
  rw [hname]
  rfl

/-- **What executors depend on.** -/
theorem generate_congr (hcheck : check c = check c') (hname : c.name = c'.name)
    (hexecution : s.execution = s'.execution) (htiming : s.timing = s'.timing)
    (kernels : List String) : generate c s kernels = generate c' s' kernels := by
  rw [generate, generate, hcheck, hname, emit_congr hname hexecution htiming]

theorem generate_shape (kernels : List String) :
    generate c.shape s.shape kernels = generate c s kernels :=
  generate_congr check_shape rfl rfl rfl kernels

end Executor

/-! ## Generation -/

/-- **Generated code does not depend on the data of a mesh.** Where chains and settings have one
shape, the same inspector is generated, with the same seed and warnings, and the same executor, or
the same errors are reported. Inspectors do not depend on timing either, and executors depend on no
setting but the mode of execution and timing, and neither on the seed nor on partitionings. -/
theorem generate_independent_of_data (c c' : Chain) (s s' : Settings) (kernels : List String) :
    (c.shape = c'.shape → s.shape = s'.shape →
      (Inspector.generate c s).map Inspector.Emission.code =
          (Inspector.generate c' s').map Inspector.Emission.code ∧
        Executor.generate c s kernels = Executor.generate c' s' kernels) ∧
    (∀ timing, Inspector.generate c { s with timing } = Inspector.generate c s) ∧
    (s.execution = s'.execution → s.timing = s'.timing →
      ∀ (seed : Option Nat) (partitionings : List Partitioning),
        Executor.generate { c with chosenSeed := seed, partitionings } s' kernels =
          Executor.generate c s kernels) := by
  refine ⟨fun hchain hsettings => ⟨?_, ?_⟩, fun timing => rfl, fun hexecution htiming _ _ => ?_⟩
  · rw [← Inspector.generate_shape, hchain, hsettings, Inspector.generate_shape]
  · rw [← Executor.generate_shape, hchain, hsettings, Executor.generate_shape]
  · exact Executor.generate_congr rfl rfl hexecution.symm htiming.symm kernels

open Inspector (edgeCalls edgeSettings)

/-- The edges on another process, with other sizes and indices. -/
def coarseCalls : List Chain.Call :=
  edgeCalls ++
    [.declareSets
        [{ name := "border", core := 1, superset := some "edges" }, { name := "edges", core := 25 },
          { name := "cells", core := 10, nonexec := 2 }],
      .declareMaps [{ name := "edge2cell", source := "edges", target := "cells", values := [7] }],
      .declarePartitionings [{ set := "cells", values := [] }, { set := "ghost", values := [5] }],
      .setTileSize 8, .setRank 3]

theorem generate_independent_of_data_edges :
    ((Chain.new "airfoil").afterAll edgeCalls).rank ≠
        ((Chain.new "airfoil").afterAll coarseCalls).rank ∧
      (∃ e e', Inspector.generate ((Chain.new "airfoil").afterAll edgeCalls) edgeSettings = .ok e ∧
        Inspector.generate ((Chain.new "airfoil").afterAll coarseCalls) edgeSettings = .ok e' ∧
        e.code = e'.code) ∧
      Executor.generate ((Chain.new "airfoil").afterAll edgeCalls) edgeSettings ["", ""] =
        Executor.generate ((Chain.new "airfoil").afterAll coarseCalls) edgeSettings ["", ""] ∧
      Executor.generate { (Chain.new "airfoil").afterAll edgeCalls with partitionings := [] }
          { execution := .threads } ["", ""] =
        Executor.generate ((Chain.new "airfoil").afterAll edgeCalls) edgeSettings ["", ""] := by
  have hshape : ((Chain.new "airfoil").afterAll edgeCalls).shape =
      ((Chain.new "airfoil").afterAll coarseCalls).shape := by cbv
  have hcheck : Inspector.check ((Chain.new "airfoil").afterAll edgeCalls) edgeSettings = .ok 1 := by
    cbv
  have hcheck' : Inspector.check ((Chain.new "airfoil").afterAll coarseCalls) edgeSettings =
      .ok 1 := by cbv
  have hranks : ((Chain.new "airfoil").afterAll edgeCalls).rank = 0 ∧
      ((Chain.new "airfoil").afterAll coarseCalls).rank = 3 := by
    constructor <;> cbv
  obtain ⟨e, he, -⟩ := Inspector.generate_of_check hcheck
  obtain ⟨e', he', -⟩ := Inspector.generate_of_check hcheck'
  obtain ⟨hinspector, hexecutor⟩ := (generate_independent_of_data _ _ edgeSettings edgeSettings
    ["", ""]).1 hshape rfl
  have hsettings := (generate_independent_of_data ((Chain.new "airfoil").afterAll edgeCalls)
    ((Chain.new "airfoil").afterAll coarseCalls) edgeSettings { execution := .threads }
    ["", ""]).2.2 rfl rfl
  rw [he, he'] at hinspector
  refine ⟨?_, ⟨e, e', he, he', Except.ok.inj hinspector⟩, hexecutor, hsettings _ []⟩
  rw [hranks.1, hranks.2]
  decide

end SparseTiling
