import SparseTiling.Compiler
import SparseTiling.Proofs.Inspector.Closed
import SparseTiling.Proofs.Inspector.Protocol
import SparseTiling.Proofs.Session.History

/-!
# Showing the tiled mesh

With coordinates an inspector shows the tiled mesh after its report. Three parts have to agree on
it: the statements of the inspector look for a report and for coordinates, while the options of the
compiler and the arguments look for coordinates only. They agree because coordinates come with a
report, in whatever order settings are made.

* `Draft.afterAll`: settings after a sequence of calls.
* `Settings.Reported`, `reported_afterAll`: coordinates are never there without a report.
* `functions`: the functions that statements call.
* `mem_functions_body`, `mem_options`, `mem_arguments`: what the three parts look for.
* `shows_mesh_consistently`: they agree, and where the mesh is shown.
-/

namespace SparseTiling

/-! ## Coordinates come with a report -/

/-- The settings after a sequence of calls, refused ones among them. -/
def Draft.afterAll (d : Draft) (calls : List Draft.Call) : Draft := calls.foldl Draft.after d

/-- Where there are coordinates, there is a report. -/
def Settings.Reported (s : Settings) : Prop := s.coordinates.isSome = true → s.debug.isSome = true

/-- Each accepted call asks for a report with its coordinates, or leaves both alone. -/
theorem Draft.reported_apply {d d' : Draft} {call : Draft.Call} (hd : d.settings.Reported)
    (h : d.apply call = .ok d') : d'.settings.Reported := by
  rw [eq_write_of_apply h]
  cases call with
  | setDebug mode field => exact fun _ => rfl
  | readDebug text field => exact fun _ => rfl
  | _ => exact hd

/-- **Coordinates are never there without a report,** whatever calls were made. -/
theorem Draft.reported_afterAll {d : Draft} (hd : d.settings.Reported) (calls : List Draft.Call) :
    (d.afterAll calls).settings.Reported := by
  induction calls generalizing d with
  | nil => exact hd
  | cons call rest ih =>
    refine ih ?_
    unfold after
    cases h : d.apply call with
    | error e => exact hd
    | ok d' => exact reported_apply hd h

/-! ## What the parts look for -/

namespace Inspector

open Code

variable {c : Chain} {s : Settings}

/-- The functions that statements call by name, inner statements included. -/
def functions (stmts : List Stmt) : List String :=
  (Stmt.occurrencesAll [] stmts).filterMap Occurrence.function?

theorem functions_append (first rest : List Stmt) :
    functions (first ++ rest) = functions first ++ functions rest := by
  simp [functions, Stmt.occurrencesAll_eq]

/-- The mesh is shown once, if there is a report with coordinates. -/
theorem count_functions_body (seed : Nat) : (functions (body c s seed)).count "generate_vtk" =
    if s.debug.isSome ∧ s.coordinates.isSome then 1 else 0 := by
  rw [functions, occurrencesAll_body, count_functions (by decide)]
  unfold inspectingFunctions reportFunctions
  cases s.debug <;> cases s.coordinates <;> simp [List.count_replicate]

theorem mem_functions_body (seed : Nat) : "generate_vtk" ∈ functions (body c s seed) ↔
    s.debug.isSome = true ∧ s.coordinates.isSome = true := by
  rw [← List.count_pos_iff, count_functions_body]
  split <;> simp_all

theorem mem_options (compiler : Compiler) :
    "-DSLOPE_VTK" ∈ compiler.options s ↔ s.coordinates.isSome = true := by
  unfold Compiler.options
  cases compiler <;> split <;> simp_all

theorem mem_arguments : (∃ set size, .coordinates (some set) size ∈ arguments c s) ↔
    s.coordinates.isSome = true := by
  unfold arguments
  cases s.coordinates <;> simp

/-! ## Where the mesh is shown -/

/-- What only the first process does: a report at some level, and right after it the mesh with the
coordinates of a set, at the same level. -/
def shownReport (level : DebugMode) (set dimension : String) : Stmt :=
  .ifThen (.equals (.ident "rank") (.int 0))
    [.expr (.callName "insp_print" [.ident "insp", .ident (Mode.symbol level)]),
      .expr (.callName "generate_vtk"
        [.ident "insp", .ident (Mode.symbol level), .ident set,
          .cast "double*" (.tableCell "coords_dat" 0 "data"), .ident dimension, .ident "rank"])]

theorem count_functions_shownReport (level : DebugMode) (set dimension : String) :
    (functions [shownReport level set dimension]).count "generate_vtk" = 1 := by
  simp [functions, shownReport, Stmt.occurrencesAll_eq, Expr.equals]

/-- The report stands behind the sets of the chain. -/
theorem exists_shownReport {level : DebugMode} {field : CoordinateField} (seed : Nat)
    (hdebug : s.debug = some level) (hfield : s.coordinates = some field) :
    ∃ before after,
      body c s seed = before ++ shownReport level field.set field.constant :: after ∧
        declarations (setDecls c) ⊆ declarations before := by
  have hreport : reportStmts s = [shownReport level field.set field.constant, .blank] := by
    rw [reportStmts, hdebug, hfield]
    rfl
  rw [body_eq, hreport]
  refine ⟨chainSection c ++ .blank :: (meshSection c s ++ .blank :: (partSection c ++ .blank ::
    (initStmts c s ++ .blank :: (loopStmts c ++ .blank :: (runStmts seed ++ [.blank]))))),
    .blank :: finishStmts, by simp, ?_⟩
  have hsets : setDecls c ⊆ chainSection c := by
    intro st hst
    simp [chainSection, hst]
  intro d hd
  obtain ⟨st, hst, hd⟩ := List.mem_flatMap.1 hd
  exact List.mem_flatMap.2 ⟨st, List.mem_append_left _ (hsets hst), hd⟩

/-- **All parts agree on whether the mesh is shown.** Under settings that calls lead to and for
every compiler, a generated inspector calls the function that shows the mesh exactly if its code is
compiled with the option for it, and exactly if its arguments name a set with coordinates. Then it
calls it once, on the first process, right after the report and at its level, for a set that was
declared before and that the arguments name. -/
theorem shows_mesh_consistently (calls : List Draft.Call) (compiler : Compiler) {e : Emission}
    (h : generate c (({} : Draft).afterAll calls).settings = .ok e) :
    ∃ program body, programOf c (({} : Draft).afterAll calls).settings = .ok program ∧
      e.source = render program ∧ bodyOf program = some body ∧
      List.TFAE ["generate_vtk" ∈ functions body,
        "-DSLOPE_VTK" ∈ compiler.options (({} : Draft).afterAll calls).settings,
        ∃ set size, .coordinates (some set) size ∈ e.arguments] ∧
      ("generate_vtk" ∈ functions body → ∃ before after level set dimension,
        body = before ++ shownReport level set dimension :: after ∧
          (({} : Draft).afterAll calls).settings.debug = some level ∧
          "generate_vtk" ∉ functions before ∧ "generate_vtk" ∉ functions after ∧
          ("set_t*", set) ∈ declarations before ∧
          ∃ size, .coordinates (some set) size ∈ e.arguments) := by
  obtain ⟨seed, hcheck, he⟩ := bind_eq_ok h
  obtain rfl := Except.ok.inj he
  set s := (({} : Draft).afterAll calls).settings
  have hreported : s.Reported := Draft.reported_afterAll (fun hnone => by cases hnone) calls
  refine ⟨program c s seed, body c s seed, programOf_of_check hcheck, rfl, bodyOf_program seed,
    ?_, ?_⟩
  · -- what statements look for besides the coordinates is there anyway
    have hbody : "generate_vtk" ∈ functions (body c s seed) ↔ s.coordinates.isSome = true := by
      rw [mem_functions_body]
      exact ⟨fun hboth => hboth.2, fun hfield => ⟨hreported hfield, hfield⟩⟩
    have hoptions := mem_options (s := s) compiler
    have harguments := mem_arguments (c := c) (s := s)
    tfae_have 1 ↔ 2 := hbody.trans hoptions.symm
    tfae_have 2 ↔ 3 := hoptions.trans harguments.symm
    tfae_finish
  · intro hshown
    obtain ⟨hdebug, hfield⟩ := (mem_functions_body seed).1 hshown
    obtain ⟨level, hlevel⟩ := Option.isSome_iff_exists.1 hdebug
    obtain ⟨field, hcoordinates⟩ := Option.isSome_iff_exists.1 hfield
    obtain ⟨before, after, hbody, hdeclared⟩ :=
      exists_shownReport (c := c) seed hlevel hcoordinates
    have hset : c.hasSet field.set = true := (check_eq_ok hcheck).2.1 field hcoordinates
    -- the report has the one call there is, so the statements around it have none
    have hcount := count_functions_body (c := c) (s := s) seed
    rw [if_pos ⟨hdebug, hfield⟩, hbody, List.append_cons, functions_append, functions_append,
      List.count_append, List.count_append, count_functions_shownReport] at hcount
    refine ⟨before, after, level, field.set, field.constant, hbody, hlevel, ?_, ?_,
      hdeclared (declared_set hset), field.size, ?_⟩
    · rw [← List.count_eq_zero]
      omega
    · rw [← List.count_eq_zero]
      omega
    · simp [arguments, hcoordinates]

/-- Reports at several levels, one of them with coordinates. -/
def showingCalls : List Draft.Call :=
  [.setDebug .low none,
    .readDebug "verbose" (some { set := "cells", values := [], dimension := .two }),
    .setPrefetch (-1), .setDebug .medium none]

theorem shows_mesh_consistently_edges : ∃ program body,
    programOf ((Chain.new "airfoil").afterAll edgeCalls)
        (({} : Draft).afterAll showingCalls).settings = .ok program ∧
      bodyOf program = some body ∧ "generate_vtk" ∈ functions body ∧
      ∃ before after set dimension,
        body = before ++ shownReport .medium set dimension :: after ∧
          ("set_t*", set) ∈ declarations before := by
  have hsettings : (({} : Draft).afterAll showingCalls).settings =
      { debug := some .medium
        coordinates := some { set := "cells", values := [], dimension := .two } } := by cbv
  have hcheck : check ((Chain.new "airfoil").afterAll edgeCalls)
      (({} : Draft).afterAll showingCalls).settings = .ok 1 := by cbv
  obtain ⟨e, he, -⟩ := generate_of_check hcheck
  obtain ⟨program, body, hprogram, -, hbody, hagree, hplace⟩ :=
    shows_mesh_consistently showingCalls .intel he
  have hoption : "-DSLOPE_VTK" ∈
      Compiler.intel.options (({} : Draft).afterAll showingCalls).settings := by
    rw [hsettings]
    decide
  have hshown := (hagree.out 0 1).2 hoption
  obtain ⟨before, after, level, set, dimension, hsplit, hlevel, -, -, hdeclared, -⟩ := hplace hshown
  obtain rfl : DebugMode.medium = level := by
    rw [hsettings] at hlevel
    exact Option.some.inj hlevel
  exact ⟨program, body, hprogram, hbody, hshown, before, after, set, dimension, hsplit, hdeclared⟩

end Inspector

end SparseTiling
