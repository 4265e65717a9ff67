import SparseTiling.Proofs.Code.Filled
import SparseTiling.Proofs.Code.Lines
import SparseTiling.Proofs.Generation.Names

/-!
# Executors in a function

An executor is printed once on its own and once more as the body of a function. The second
printing goes through the rules for fragments, which drop newlines at the ends and blanks at the
ends of lines. The first one leaves neither, so all that changes is the indentation.

* `worded_program`: the words of an executor stand on one line each.
* `Emits.unlines_fragmentLines`: an executor is made of the lines that a fragment keeps.
* `wrap_eq`: what a function around a fragment consists of.
* `wrap_only_indents`: the function has the lines of the executor, two blanks further in.
-/

namespace SparseTiling.Executor

open Code Text

variable {s : Settings}

/-! ## The words of an executor -/

theorem newline_notMem_toString (n : Nat) : '\n' ∉ (toString n).toList := by
  intro hmem
  have hin := Alphabet.inName_of_spells (Alphabet.latin.spells_toString n) '\n' hmem
  exact absurd hin (by decide)

theorem newline_notMem_sized (name : String) (h : '\n' ∉ name.toList) (count : Nat) :
    '\n' ∉ (sized name count).toList := by
  simpa [sized, h] using newline_notMem_toString count

/-- The names of a binding stand on one line, and that of its loop can end a comment. -/
structure Binding.Worded (b : Binding) : Prop where
  loop : Solid b.loopName.toList
  maps : ∀ m ∈ b.localMaps, '\n' ∉ m.2.toList
  iterations : '\n' ∉ b.iterations.toList

theorem worded_prologue {b : Binding} (h : b.Worded) : ∀ st ∈ prologue s b, st.Worded := by
  simp only [prologue, List.forall_mem_append, List.forall_mem_cons, List.forall_mem_map]
  refine ⟨⟨⟨?_, ?_⟩, ?_⟩, ?_⟩
  · rw [Stmt.Worded, String.toList_append]
    refine h.loop.append ?_
    simpa using newline_notMem_toString b.position
  · simpa [Stmt.Worded, Stmt.declare] using h.maps
  · simp [Stmt.Worded, Stmt.declare, h.iterations]
  · split <;> simp [Stmt.Worded]

theorem worded_epilogue (position : Nat) : ∀ st ∈ epilogue s position, st.Worded := by
  unfold epilogue
  split <;> simp [Stmt.Worded]

theorem worded_kernelStmts {b : Binding} (h : b.Worded) (kernel : Binding → String) :
    ∀ st ∈ kernelStmts s kernel b, st.Worded := by
  simp only [kernelStmts, List.forall_mem_append, List.forall_mem_cons]
  exact ⟨⟨trivial, worded_prologue h⟩, trivial, worded_epilogue b.position⟩

theorem worded_tileBody {bs : List Binding} (h : ∀ b ∈ bs, b.Worded) (kernel : Binding → String) :
    ∀ st ∈ tileBody s bs kernel, st.Worded := by
  simp only [tileBody, List.forall_mem_append, List.forall_mem_flatMap]
  refine ⟨⟨?_, ?_⟩, fun b hb => worded_kernelStmts (h b hb) kernel⟩
  · simp [Stmt.Worded, Stmt.WordedAll, Stmt.declare, Stmt.declareBare, tileVar, loopSizeVar]
  · split <;> simp [Stmt.Worded, Stmt.declareBare, startVar, endVar]

theorem worded_colorBody (count : Nat) {tiles : Stmt} (h : tiles.Worded) :
    ∀ st ∈ colorBody s count tiles, st.Worded := by
  have hiters := newline_notMem_sized workerItersVar (by decide) count
  have htimes := newline_notMem_sized workerTimesVar (by decide) count
  unfold colorBody timedParallel mergeLoop
  split
  · split <;> simp +decide [Stmt.Worded, Stmt.WordedAll, Stmt.declare, Stmt.declareBare, h, hiters,
      htimes]
  · simpa using h

theorem worded_timingInit (count : Nat) : ∀ st ∈ timingInit count, st.Worded := by
  have hiters := newline_notMem_sized itersVar (by decide) count
  have htimes := newline_notMem_sized timesVar (by decide) count
  simp +decide [timingInit, Stmt.Worded, Stmt.WordedAll, Stmt.declare, Stmt.declareBare, hiters,
    htimes]

theorem worded_timingReport (chain : String) (count : Nat) :
    ∀ st ∈ timingReport chain count, st.Worded := by
  simp [timingReport, Stmt.Worded, Stmt.WordedAll, Stmt.declare, Stmt.declareBare]

theorem worded_colorLoop {bs : List Binding} (h : ∀ b ∈ bs, b.Worded)
    (kernel : Binding → String) : (colorLoop s bs kernel).Worded := by
  have htiles : (Stmt.forRange "j" (.ident tileCount) (tileBody s bs kernel)).Worded :=
    ⟨by decide, Stmt.wordedAll_iff.2 (worded_tileBody h kernel)⟩
  refine ⟨by decide, Stmt.wordedAll_iff.2 (List.forall_mem_cons.2 ⟨?_, worded_colorBody _ htiles⟩)⟩
  exact ⟨by decide, by decide⟩

/-- **The words of an executor stand on one line each,** if those of its bindings do. -/
theorem worded_program (chain : String) {bs : List Binding} (h : ∀ b ∈ bs, b.Worded)
    (kernel : Binding → String) : ∀ st ∈ program chain s bs kernel, st.Worded := by
  simp only [program, List.forall_mem_append]
  refine ⟨⟨?_, ?_⟩, ?_⟩
  · split
    · exact List.forall_mem_append.2 ⟨worded_timingInit _, by simp [Stmt.Worded]⟩
    · simp
  · simp [Stmt.Worded, Stmt.declare, execVar, colorCount, worded_colorLoop h]
  · split
    · exact List.forall_mem_cons.2 ⟨trivial, worded_timingReport chain _⟩
    · simp

/-! ## The lines of an executor -/

/-- The first line of an executor is not empty. -/
theorem solid_head_program (chain : String) (bs : List Binding) (kernel : Binding → String) :
    ∃ first, (Stmt.chunksAll (program chain s bs kernel) 0).head? = some first ∧
      first.Solid "  " := by
  unfold program
  cases s.timing with
  | true => exact ⟨_, rfl, Chunk.solid_text 0 (by decide)⟩
  | false =>
    have htext (text : String) (h : '\n' ∉ text.toList) := Doc.neat_ofText h
    have hcast := (htext "(executor_t*)" (by decide)).cat (htext execParam (by decide))
    refine ⟨_, rfl, Chunk.solid_stmt 0 (((htext _ ?_).cat (htext _ ?_)).cat hcast)⟩ <;> decide

/-- The last line of an executor closes a block or a file. -/
theorem solid_getLast_program (chain : String) (bs : List Binding) (kernel : Binding → String) :
    ∃ last, (Stmt.chunksAll (program chain s bs kernel) 0).getLast? = some last ∧
      last.Solid "  " := by
  cases htiming : s.timing with
  | true =>
    have hlast : (program chain s bs kernel).getLast? =
        some (.expr (.method (.ident "outfile") "close" [])) := by
      simp [program, htiming, timingReport]
    have hplain : Plain .latin .full (.method (.ident "outfile") "close" []) := by
      simp (disch := decide) [Alphabet.isIdent_of_latin, Alphabet.isMember_of_latin]
    exact ⟨_, Stmt.getLast?_chunksAll hlast rfl, Chunk.solid_stmt 0 (Tame.neat (.inr hplain))⟩
  | false =>
    have hlast : (program chain s bs kernel).getLast? = some (colorLoop s bs kernel) := by
      simp [program, htiming]
    have hclosing : ((colorLoop s bs kernel).chunks 0).getLast? = some (.closing 0) := by
      rw [colorLoop, Stmt.chunks, ← List.cons_append]
      exact List.getLast?_concat
    exact ⟨_, Stmt.getLast?_chunksAll hlast hclosing, Chunk.solid_closing 0⟩

/-- The lines of a program are settled, the first and the last of them solid: nothing is lost when
it is cut into the lines of a fragment. -/
theorem unlines_fragmentLines_program (chain : String) {bs : List Binding}
    (h : ∀ b ∈ bs, b.Worded) (kernel : Binding → String) :
    unlines (fragmentLines (render (program chain s bs kernel))) =
      render (program chain s bs kernel) := by
  obtain ⟨first, hfirst, hsolid⟩ := solid_head_program (s := s) chain bs kernel
  obtain ⟨last, hlast, hsolid'⟩ := solid_getLast_program (s := s) chain bs kernel
  refine unlines_fragmentLines_render ?_ hfirst hsolid hlast hsolid'
  exact Stmt.settled_chunksAll _ 0 (fine_program (A := .latin) chain bs kernel)
    (Stmt.wordedAll_iff.2 (worded_program chain h kernel))

/-- Names without blanks make bindings whose words stand on one line. -/
theorem worded_bindings {c : Chain} (hsound : c.Sound) (hresolved : c.Resolved)
    (hloops : ∀ l ∈ c.loops, ∀ ch ∈ l.name.toList, isBlank ch = false)
    (hmaps : ∀ m ∈ c.maps, ∀ ch ∈ m.name.toList, isBlank ch = false) :
    ∀ b ∈ bindings c, b.Worded := by
  rw [bindings, List.forall_mem_map]
  rintro ⟨l, i⟩ hl
  have hmem : l ∈ c.loops := List.mem_of_getElem? (List.mk_mem_zipIdx_iff_getElem?.1 hl)
  have hnonempty : l.name.toList ≠ [] := by simpa using (hsound.loopNames l hmem).1
  refine ⟨solid_of_visible hnonempty (hloops l hmem), ?_, ?_⟩
  · simp only [bind, List.forall_mem_map]
    intro m hm
    -- the maps that a loop uses are declared, so their names have no blanks either
    obtain ⟨d, hd, hdm⟩ := List.mem_map.1 (mem_indirectMaps_iff.1 hm)
    obtain ⟨x, hx, rfl⟩ := List.mem_map.1 (hresolved.accesses l hmem d hd m hdm)
    have hname : '\n' ∉ x.name.toList := fun hnl => absurd (hmaps x hx _ hnl) (by decide)
    simpa [localMapName, hname] using newline_notMem_toString i
  · simpa [bind, iterationsName] using newline_notMem_toString i

/-! ## The function around an executor -/

/-- The head of the function around an executor. -/
def wrapHead (function : String) : Signature := { result := "void", name := function, params }

/-- The line that includes a header. -/
def includeLine (header : String) : String :=
  if header ∈ Library.headers then "#include \"" ++ header ++ "\""
  else "#include <" ++ header ++ ">"

theorem chunks_includeHeader (header : String) :
    (includeHeader header).chunks 0 = [.text 0 (includeLine header)] := by
  unfold includeHeader includeLine
  split <;> rfl

/-- The opening line of the function, possibly broken where it is too long. -/
def wrapOpening (function : String) : Doc := (wrapHead function).doc ++ Doc.ofText " \x7b"

/-- The parameters of the function, as they are printed. -/
theorem docs_params : params.map (fun p => Doc.ofText p.text) =
    [.text "void* _exec", .text "tile_region region", .text "int rank"] := by decide

theorem marks_wrapOpening (function : String) : (wrapOpening function).marks =
    Marks.ofChars ("void " ++ function ++ "(").toList ++
      (Doc.separatedMarks [.text "void* _exec", .text "tile_region region", .text "int rank"] ++
        Marks.ofChars ") \x7b".toList) := by
  simp [wrapOpening, wrapHead, Signature.doc, Doc.marks_commaSeparated, docs_params, Marks.ofChars]

theorem tidy_wrapOpening {function : String} (h : '\n' ∉ function.toList) :
    (wrapOpening function).Tidy := by
  rw [Doc.Tidy, marks_wrapOpening]
  refine Marks.tidy_append (Marks.tidy_ofChars (by simpa using h))
    (Marks.tidy_append (Doc.tidy_separatedMarks ?_ ?_) (Marks.tidy_ofChars (by decide)))
  · rw [List.forall_mem_cons, List.forall_mem_cons, List.forall_mem_singleton]
    exact ⟨Marks.tidy_ofChars (by decide), Marks.tidy_ofChars (by decide),
      Marks.tidy_ofChars (by decide)⟩
  · rw [List.forall_mem_cons, List.forall_mem_cons, List.forall_mem_singleton]
    exact ⟨⟨'v', _, rfl, by decide⟩, ⟨'t', _, rfl, by decide⟩, ⟨'i', _, rfl, by decide⟩⟩

theorem flat_wrapOpening (function : String) : String.ofList (wrapOpening function).flat =
    "void " ++ function ++ "(void* _exec, tile_region region, int rank) \x7b" := by
  rw [Doc.flat, marks_wrapOpening, ← String.toList_inj]
  simp [Doc.separatedMarks, Doc.marks, Marks.ofChars, Marks.flat]

/-- A head that is short enough stays on its line. -/
theorem render_wrapOpening {function : String} (h : Text.width ("void " ++ function) ≤ 55) :
    (wrapOpening function).render pageWidth =
      "void " ++ function ++ "(void* _exec, tile_region region, int rank) \x7b" := by
  have hsoft : (wrapOpening function).Soft := (wrapHead function).soft_doc.cat (Doc.soft_ofText _)
  obtain ⟨ts, hts, hhead⟩ := (wrapHead function).shows_doc
  have hspan : Layout.span (ts 0 ++ Layout.Stretch.ofText " \x7b") ≤ pageWidth := by
    have hname : Layout.span (Layout.Stretch.ofText ("void " ++ function)) =
        Text.width ("void " ++ function) := by
      simp [Layout.Stretch.ofText, Layout.Stretch.width]
    have hrest : Layout.span (Layout.enclosed "(" 4
        (params.map fun p => Layout.Stretch.ofText p.text) ")" ++
          Layout.Stretch.ofText " \x7b") = 45 := by decide
    have hstretches : ts 0 = Layout.Stretch.ofText ("void " ++ function) ++
        Layout.enclosed "(" 4 (params.map fun p => Layout.Stretch.ofText p.text) ")" := by
      rw [hhead, Signature.stretches, wrapHead]
      simp
    rw [hstretches, List.append_assoc, Layout.span_append, hname, hrest, pageWidth]
    omega
  rw [hsoft.render_of_fits (hts.cat (Doc.shows_ofText _)) hspan]
  exact flat_wrapOpening function

theorem print_includeHeaders (headers : List String) :
    printChunks "  " (Stmt.chunksAll (headers.map includeHeader) 0) =
      unlines (headers.map includeLine) := by
  induction headers with
  | nil => rfl
  | cons header rest ih =>
    rw [List.map_cons, Stmt.chunksAll, chunks_includeHeader, printChunks_append, ih,
      printChunks_cons, Chunk.print_outermost rfl, printChunks_nil, List.map_cons, unlines_cons]
    simp [Chunk.content]

theorem wrap_eq (e : Emission) (function : String) : e.wrap function =
    unlines (e.headers.map includeLine ++ ["", (wrapOpening function).render pageWidth] ++
      (fragmentLines e.source).map nested ++ ["\x7d"]) := by
  have hlines : ∀ line ∈ fragmentLines e.source, '\n' ∉ line.toList :=
    fun line hline => (settled_fragmentLines e.source line hline).line
  rw [Emission.wrap, render_eq_chunks, Stmt.chunksAll_append, printChunks_append,
    print_includeHeaders]
  have hbody : Stmt.chunksAll [.blank, .function { result := "void", name := function, params }
      [.fragment e.source]] 0 = .text 0 "" :: .doc 0 (wrapOpening function) ::
        ((fragmentLines e.source).map (.text 1) ++ [.closing 0]) := by
    simp [Stmt.chunksAll, Stmt.chunks, wrapOpening, wrapHead, Chunk.opening]
  rw [hbody, printChunks_cons, printChunks_cons, printChunks_append,
    Chunk.printChunks_nested hlines, Chunk.print_outermost rfl, Chunk.print_outermost rfl,
    printChunks_cons, Chunk.closing, Chunk.print_outermost rfl]
  have hwidth : max pageWidth leastWidth = pageWidth := by decide
  simp [Chunk.content, Chunk.room, hwidth, String.append_assoc]

/-- **An executor is made of the lines that a fragment keeps.** -/
theorem Emits.unlines_fragmentLines {c : Chain} {e : Emission} (h : Emits c s e)
    (hsound : c.Sound) (hloops : ∀ l ∈ c.loops, ∀ ch ∈ l.name.toList, isBlank ch = false)
    (hmaps : ∀ m ∈ c.maps, ∀ ch ∈ m.name.toList, isBlank ch = false) :
    unlines (fragmentLines e.source) = e.source := by
  obtain ⟨hresolved, kernel, rfl⟩ := h.eq_emit
  exact unlines_fragmentLines_program c.name (worded_bindings hsound hresolved hloops hmaps) kernel

theorem Emits.includeLines {c : Chain} {e : Emission} (h : Emits c s e) :
    e.headers.map includeLine =
      Library.headers.map (fun h => "#include \"" ++ h ++ "\"") ++
        if s.timing then timingHeaders.map (fun h => "#include <" ++ h ++ ">") else [] := by
  obtain ⟨-, kernel, rfl⟩ := h.eq_emit
  change (headers s).map includeLine = _
  unfold headers
  cases s.timing <;> decide

/-- **A function around an executor only indents it.** Whatever the kernels are, as long as loops
and maps have names without blanks and the function has a name on one line: the function is the
inclusions, an empty line, its head, the lines of the executor with two blanks before those that
are not empty, and a closing brace. Without the two blanks, the lines are the executor again. The
head is on one line if it fits on the page. -/
theorem wrap_only_indents (name : String) (calls : List Chain.Call) (s : Settings) (e : Emission)
    (function : String)
    (hloops : ∀ l ∈ ((Chain.new name).afterAll calls).loops,
      ∀ c ∈ l.name.toList, isBlank c = false)
    (hmaps : ∀ m ∈ ((Chain.new name).afterAll calls).maps,
      ∀ c ∈ m.name.toList, isBlank c = false)
    (hfunction : '\n' ∉ function.toList) (he : Emits ((Chain.new name).afterAll calls) s e) :
    ∃ (head : String) (lines : List String),
      joinLines head =
        "void " ++ function ++ "(void* _exec, tile_region region, int rank) \x7b" ∧
      (Text.width ("void " ++ function) ≤ 55 →
        head = "void " ++ function ++ "(void* _exec, tile_region region, int rank) \x7b") ∧
      (∀ line ∈ lines, '\n' ∉ line.toList) ∧ e.source = unlines lines ∧
      e.wrap function = unlines
        (Library.headers.map (fun h => "#include \"" ++ h ++ "\"") ++
          (if s.timing then timingHeaders.map (fun h => "#include <" ++ h ++ ">") else []) ++
          ["", head] ++ lines.map nested ++ ["\x7d"]) ∧
      unlines ((lines.map nested).map fun line => String.ofList (line.toList.drop 2)) =
        e.source := by
  have hsource := he.unlines_fragmentLines (Chain.sound_afterAll name calls) hloops hmaps
  refine ⟨(wrapOpening function).render pageWidth, fragmentLines e.source, ?_, render_wrapOpening,
    ?_, hsource.symm, ?_, ?_⟩
  · rw [Doc.joinLines_render (tidy_wrapOpening hfunction), flat_wrapOpening]
  · intro line hline
    exact (settled_fragmentLines e.source line hline).line
  · rw [wrap_eq, he.includeLines]
  · have hdrop : (fun line => String.ofList (line.toList.drop 2)) ∘ nested = id :=
      funext drop_nested
    rw [List.map_map, hdrop, List.map_id, hsource]

/-- Kernels with blank lines, lines of blanks alone, carriage returns and newlines at both ends. -/
def raggedKernels : List String :=
  ["\n\r\nflux(u);  \r\n \t\n\n  flux(v);\n\n", "  \n"]

theorem wrap_only_indents_ragged : ∃ e lines,
    generate ((Chain.new "air foil\n").afterAll Inspector.edgeCalls)
      { Inspector.edgeSettings with timing := true } raggedKernels = .ok e ∧
    e.source = unlines lines ∧
    e.wrap "run chain" = unlines
      (["#include \"inspector.h\"", "#include \"executor.h\"", "#include \"utils.h\"",
        "#include <vector>", "#include <string>", "#include <sstream>", "#include <fstream>",
        "#include <sys/stat.h>", "",
        "void run chain(void* _exec, tile_region region, int rank) \x7b"] ++
        lines.map nested ++ ["\x7d"]) := by
  have hcheck : check ((Chain.new "air foil\n").afterAll Inspector.edgeCalls) =
      .ok (bindings ((Chain.new "air foil\n").afterAll Inspector.edgeCalls)) := by cbv
  have hloops : ((Chain.new "air foil\n").afterAll Inspector.edgeCalls).loops.map (·.name) =
      ["flux", "flux"] := by cbv
  have hmaps : ((Chain.new "air foil\n").afterAll Inspector.edgeCalls).maps.map (·.name) =
      ["edge2cell"] := by cbv
  obtain ⟨e, he⟩ : ∃ e, generate ((Chain.new "air foil\n").afterAll Inspector.edgeCalls)
      { Inspector.edgeSettings with timing := true } raggedKernels = .ok e :=
    generate_of_check hcheck _ rfl
  have hvisible (names : List String) {α : Type} {xs : List α} {f : α → String}
      (h : xs.map f = names) (hnames : names.all (fun n => n.toList.all (!isBlank ·)) = true) :
      ∀ x ∈ xs, ∀ c ∈ (f x).toList, isBlank c = false := by
    intro x hx c hc
    have hname := List.all_eq_true.1 hnames (f x) (h ▸ List.mem_map_of_mem hx)
    simpa using List.all_eq_true.1 hname c hc
  obtain ⟨head, lines, -, hhead, -, hsource, hwrap, -⟩ := wrap_only_indents "air foil\n"
    Inspector.edgeCalls { Inspector.edgeSettings with timing := true } e "run chain"
    (hvisible _ hloops (by decide)) (hvisible _ hmaps (by decide)) (by decide)
    (.inr ⟨_, he⟩)
  rw [hhead (by decide)] at hwrap
  exact ⟨e, lines, he, hsource, hwrap⟩

end SparseTiling.Executor
