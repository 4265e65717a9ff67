import SparseTiling.Proofs.Code.Scope

/-!
# Executors are scoped

An executor has blocks: loops over colors and tiles, and with timing in shared memory the
part of a worker. Its variables are in scope wherever they are used. The arrays that add up
times and iterations are those of the run or those of a worker, as the settings go.

* `ambient`: what an executor uses without declaring it.
* `scoped_kernelStmts`, `scopedAll_tileBody`: kernels and tiles.
* `scopedAll_colorBody`, `scoped_colorLoop`: the walk.
* `scopedAll_program`: the statements of an executor.
-/

namespace SparseTiling.Library

/-- The functions that an executor calls, those of the system included, and the end of a
line. -/
def execution : List String :=
  ["exec_num_colors", "exec_tiles_per_color", "exec_tile_at", "tile_get_local_map",
    "tile_get_iterations", "tile_loop_size", "time_stamp", "stat", "mkdir", "std::endl"]

end SparseTiling.Library

namespace SparseTiling.Executor

open Code

variable {s : Settings} {visible : List String}

/-! ## Blocks of an executor -/

/-- The names that an executor uses without declaring them: the parameters of the function
around it, and the functions that it calls. -/
def ambient : List String := params.map (·.name) ++ Library.execution

theorem variableName_sized {name : String} (h : '[' ∉ name.toList) (count : Nat) :
    variableName (sized name count) = name := by
  rw [sized, String.append_assoc]
  exact variableName_array h _

/-- The arrays that add up times and iterations, if there are any. -/
def sums (s : Settings) : List String :=
  if s.timing then [(accumulators s).1, (accumulators s).2] else []

/-- What is in scope around a kernel, at least. -/
def tileNames (s : Settings) : List String :=
  [tileVar, loopSizeVar] ++ (if s.timing then [startVar, endVar] else []) ++ sums s ++ ambient

theorem mem_ambient {n : String} (h : n ∈ Library.execution) : n ∈ ambient :=
  List.mem_append_right _ h

theorem scoped_prologue (b : Binding) : ∀ st ∈ prologue s b, st.Scoped (tileNames s) := by
  have hcall {n : String} (h : n ∈ Library.execution) : n ∈ tileNames s :=
    List.mem_append_right _ (mem_ambient h)
  have htile : tileVar ∈ tileNames s := by simp [tileNames]
  have hsize : loopSizeVar ∈ tileNames s := by simp [tileNames]
  simp only [prologue, List.forall_mem_append, List.forall_mem_cons, List.forall_mem_map]
  refine ⟨⟨⟨scoped_comment _, fun m _ => ?_⟩, ?_⟩, ?_⟩
  · simp (disch := decide) [Library.tileGetLocalMap, hcall, htile]
  · simp (disch := decide) [Library.tileGetIterations, Library.tileLoopSize, hcall, htile, hsize]
  · cases ht : s.timing with
    | false => simp
    | true =>
      have hstart : startVar ∈ tileNames s := by simp [tileNames, ht]
      simp (disch := decide) [Library.timeStamp, hcall, hstart]

theorem scoped_epilogue (position : Nat) :
    ∀ st ∈ epilogue s position, st.Scoped (tileNames s) := by
  unfold epilogue
  cases ht : s.timing with
  | false => simp
  | true =>
    have hcall : "time_stamp" ∈ tileNames s := List.mem_append_right _ (mem_ambient (by decide))
    have hnames : [loopSizeVar, startVar, endVar, (accumulators s).1, (accumulators s).2] ⊆
        tileNames s := by
      simp [tileNames, sums, ht]
    simp only [List.cons_subset] at hnames
    simp [Library.timeStamp, element, Expr.minus, hcall, hnames]

theorem scoped_kernelStmts (kernel : Binding → String) (b : Binding) :
    ∀ st ∈ kernelStmts s kernel b, st.Scoped (tileNames s) := by
  simp only [kernelStmts, List.forall_mem_append, List.forall_mem_cons]
  exact ⟨⟨scoped_blank, scoped_prologue b⟩, scoped_fragment _, scoped_epilogue b.position⟩

/-- A tile declares what its kernels need, given the tile's color and position. -/
theorem scopedAll_tileBody (bs : List Binding) (kernel : Binding → String)
    (hwalk : ["i", "j", execVar] ⊆ visible) (hsums : sums s ⊆ visible)
    (hambient : ambient ⊆ visible) : Stmt.ScopedAll visible (tileBody s bs kernel) := by
  refine .append (.append ?_ ?_) (scopedAll_of_forall ?_)
  · have hcall : ["exec_tile_at", regionParam] ⊆ visible :=
      List.Subset.trans (by decide : _ ⊆ ambient) hambient
    simp only [List.cons_subset] at hwalk hcall
    simp (disch := decide) [Library.execTileAt, variableName_eq, hwalk, hcall]
  · split <;> simp
  · have hvars : List.flatMap Stmt.variables
        ([.declare "tile_t*" tileVar (Library.execTileAt execVar "i" "j" regionParam),
          .ifThen (.not (.ident tileVar)) [.continueLoop], .declareBare "int" loopSizeVar] ++
          if s.timing then [.declareBare "double" startVar, .declareBare "double" endVar] else []) =
        [tileVar, loopSizeVar] ++ if s.timing then [startVar, endVar] else [] := by
      cases s.timing <;> simp (disch := decide) [variableName_eq]
    simp only [List.forall_mem_flatMap, hvars]
    intro b _ st hst
    refine (scoped_kernelStmts kernel b st hst).mono ?_
    unfold tileNames
    exact List.append_subset.2 ⟨append_subset_append _ hsums,
      List.subset_append_of_subset_right _ hambient⟩

theorem scoped_mergeLoop (count : Nat)
    (h : [itersVar, timesVar, workerItersVar, workerTimesVar] ⊆ visible) :
    (mergeLoop count).Scoped visible := by
  simp only [List.cons_subset] at h
  simp [mergeLoop, element, h]

/-- The tiles of a color find the arrays for their sums: those of their worker where there
are several, and otherwise those of the whole run. -/
theorem scopedAll_colorBody (count : Nat) {tiles : Stmt} (hvars : tiles.variables = [])
    (htiles : ∀ more, sums s ⊆ more ++ visible → tiles.Scoped (more ++ visible))
    (htimed : s.timing = true → [itersVar, timesVar] ⊆ visible) :
    Stmt.ScopedAll visible (colorBody s count tiles) := by
  unfold colorBody
  cases hshared : s.execution.isShared with
  | false =>
    have hsums : sums s ⊆ visible := by
      unfold sums accumulators
      cases ht : s.timing with
      | false => simp
      | true => simpa [hshared, and_comm] using htimed ht
    simpa using htiles [] hsums
  | true =>
    cases ht : s.timing with
    | false =>
      have hsums : sums s ⊆ visible := by simp [sums, ht]
      simpa using htiles [] hsums
    | true =>
      have hsums : sums s ⊆ [workerTimesVar, workerItersVar] ++ visible := by
        simp [sums, accumulators, ht, hshared]
      have hmerge : (mergeLoop count).Scoped ([workerTimesVar, workerItersVar] ++ visible) := by
        have hmain := htimed ht
        simp only [List.cons_subset] at hmain
        exact scoped_mergeLoop count (by simp [hmain])
      have hiters : variableName (sized workerItersVar count) = workerItersVar :=
        variableName_sized (by decide) count
      have htimes : variableName (sized workerTimesVar count) = workerTimesVar :=
        variableName_sized (by decide) count
      simp only [timedParallel, ↓reduceIte, scopedAll_cons, scoped_scope, scoped_pragma,
        variables_pragma, variables_scope, variables_declare, variables_declareBare, hvars, hiters,
        htimes, scopedAll_nil, and_true, true_and, List.nil_append]
      exact ⟨by simp, by simp, htiles _ hsums, hmerge⟩

/-- The walk over the colors needs the executor and the number of colors. -/
theorem scoped_colorLoop (bs : List Binding) (kernel : Binding → String)
    (hwalk : [execVar, colorCount] ⊆ visible)
    (htimed : s.timing = true → [itersVar, timesVar] ⊆ visible) (hambient : ambient ⊆ visible) :
    (colorLoop s bs kernel).Scoped visible := by
  have hcall : "exec_tiles_per_color" ∈ visible := hambient (by decide)
  have hcount : variableName tileCount = tileCount := variableName_eq (by decide)
  simp only [List.cons_subset] at hwalk
  rw [colorLoop, scoped_forRange, scopedAll_cons, variables_declare, hcount]
  refine ⟨by simp [hwalk], by simp [Library.execTilesPerColor, hwalk, hcall], ?_⟩
  refine scopedAll_colorBody _ rfl (fun more hsums => ?_) fun ht => ?_
  · rw [scoped_forRange]
    refine ⟨by simp, scopedAll_tileBody bs kernel (by simp [hwalk]) ?_ ?_⟩
    · exact List.subset_cons_of_subset _ hsums
    · intro n hn
      simp [hambient hn]
  · intro n hn
    simp [htimed ht hn]

theorem scopedAll_timingInit (count : Nat) (hambient : ambient ⊆ visible) :
    Stmt.ScopedAll visible (timingInit count) := by
  have hcalls : ["stat", "mkdir"] ⊆ visible := List.Subset.trans (by decide : _ ⊆ ambient) hambient
  simp only [List.cons_subset] at hcalls
  simp (disch := decide) [timingInit, Expr.equals, variableName_eq, variableName_sized, hcalls]

theorem scopedAll_timingReport (chain : String) (count : Nat)
    (htimed : [itersVar, timesVar] ⊆ visible) (hambient : ambient ⊆ visible) :
    Stmt.ScopedAll visible (timingReport chain count) := by
  have hcalls : [regionParam, rankParam, "std::endl"] ⊆ visible :=
    List.Subset.trans (by decide : _ ⊆ ambient) hambient
  simp only [List.cons_subset] at htimed hcalls
  simp (disch := decide) [timingReport, reportPath, reportLine, idents_stream, Expr.equals, element,
    variableName_eq, htimed, hcalls]

/-- **The statements of an executor are scoped,** whatever the names and the settings. -/
theorem scopedAll_program (chain : String) (bs : List Binding) (kernel : Binding → String) :
    Stmt.ScopedAll ambient (program chain s bs kernel) := by
  -- with timing, the sums are declared first and stay in scope up to the report
  have hsums : s.timing = true → [itersVar, timesVar] ⊆ List.flatMap Stmt.variables
      (if s.timing then timingInit bs.length ++ [.blank] else []) := by
    intro ht
    simp (disch := decide) [ht, timingInit, variableName_sized]
  have hexec : variableName execVar = execVar := variableName_eq (by decide)
  have hcount : variableName colorCount = colorCount := variableName_eq (by decide)
  refine .append (.append ?_ ?_) ?_
  · split
    · exact .append (scopedAll_timingInit _ (List.Subset.refl _)) (by simp)
    · exact scopedAll_nil
  · have hcall : ["exec_num_colors", execParam] ⊆ ambient := by decide
    simp only [List.cons_subset] at hcall
    rw [scopedAll_cons, scopedAll_cons, scopedAll_cons, variables_declare, variables_declare, hexec,
      hcount]
    refine ⟨by simp [hcall], by simp [Library.execNumColors, hcall], ?_, scopedAll_nil⟩
    refine scoped_colorLoop bs kernel (by simp) (fun ht => ?_) ?_
    · intro n hn
      simp only [List.mem_append]
      exact .inr (.inr (.inl (hsums ht hn)))
    · intro n hn
      simp only [List.mem_append]
      exact .inr (.inr (.inr hn))
  · split
    · next ht =>
      refine ⟨scoped_blank, scopedAll_timingReport chain _ (fun n hn => ?_) fun n hn => ?_⟩
      · have hmem := hsums ht hn
        rw [if_pos ht] at hmem
        rw [List.flatMap_append]
        exact List.mem_append_right _ (List.mem_append_left _ (List.mem_append_left _ hmem))
      · exact List.mem_append_right _ (List.mem_append_right _ hn)
    · exact scopedAll_nil

end SparseTiling.Executor
