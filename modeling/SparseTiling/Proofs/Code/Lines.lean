import SparseTiling.Proofs.Code.Quoted
import SparseTiling.Proofs.Text.Lines

/-!
# The lines of printed code

Printed code consists of whole lines. A document is broken after commas only and ends in a
visible character, so its lines have no blank at their ends; neither have the other lines, as
long as comments have none.

* `Marks.CommaBroken`, `Expr.commaBroken_doc`: lines are broken after commas.
* `Doc.Neat.solid_render`: every line of a document ends in a visible character.
* `Chunk.printedLines`, `printChunks_eq_lines`: printed code, line by line.
* `Stmt.Worded`, `Stmt.settled_chunks`: statements whose lines are settled.
* `unlines_fragmentLines_render`: code with settled lines is not changed when it is printed again.
-/

namespace SparseTiling

open Text

/-! ## Lines of documents -/

namespace Marks

/-- Possible breaks come after commas. -/
inductive CommaBroken : Marks → Prop
  | nil : CommaBroken []
  | char {ms : Marks} (c : Char) : CommaBroken ms → CommaBroken (some c :: ms)
  | comma {ms : Marks} : CommaBroken ms → CommaBroken (some ',' :: none :: ms)

variable {ms ns : Marks} {s : List Char}

theorem commaBroken_ofChars (s : List Char) : CommaBroken (ofChars s) := by
  induction s with
  | nil => exact .nil
  | cons c s ih => exact .char c ih

theorem CommaBroken.append (hm : CommaBroken ms) (hn : CommaBroken ns) :
    CommaBroken (ms ++ ns) := by
  induction hm with
  | nil => exact hn
  | char c _ ih => exact .char c ih
  | comma _ ih => exact .comma ih

theorem Tidy.newline_notMem (h : ms.Tidy) : some '\n' ∉ ms := by
  induction ms with
  | nil => exact List.not_mem_nil
  | cons m ms ih =>
    cases m with
    | none => simpa using ih h.2
    | some c => simpa [Ne.symm h.1] using ih h.2

/-- **Breaks after commas leave no blank at the end of a line,** whichever of them are taken. -/
theorem solid_split (hbroken : CommaBroken ms) (hline : some '\n' ∉ ms) (hs : Spells ms s)
    {last : Char} (hlast : isBlank last = false) : ∀ l ∈ split (s ++ [last]), Solid l := by
  -- what stands before the first break is put in front of lines that are solid already
  induction hbroken generalizing s with
  | nil =>
    cases hs
    have hsolid := solid_singleton hlast
    rw [List.nil_append, split_line hsolid.line]
    exact List.forall_mem_singleton.2 hsolid
  | char c _ ih =>
    obtain ⟨hc, hline⟩ := not_or.1 (mt List.mem_cons.2 hline)
    cases hs with
    | char _ hrest =>
      have hchar : '\n' ∉ [c] := by simpa using hc
      simpa using solid_split_append hchar (ih hline hrest)
  | comma _ ih =>
    replace hline := (not_or.1 (mt List.mem_cons.2 (not_or.1 (mt List.mem_cons.2 hline)).2)).2
    cases hs with
    | char _ hrest =>
      cases hrest with
      | blank hrest =>
        have hcomma : '\n' ∉ [',', ' '] := by decide
        simpa using solid_split_append hcomma (ih hline hrest)
      | newline n hrest =>
        have hcomma : Solid [','] := solid_singleton (by decide)
        have hblanks : '\n' ∉ List.replicate n ' ' := by simp [List.mem_replicate]
        have hnext := solid_split_append hblanks (ih hline hrest)
        simpa using solid_split_line hcomma hnext

end Marks

namespace Doc

variable {d e : Doc}

/-- Lines are broken after commas only. -/
def CommaBroken (d : Doc) : Prop := d.marks.CommaBroken

theorem commaBroken_ofText (s : String) : (ofText s).CommaBroken := by
  rw [CommaBroken, marks_ofText]
  exact Marks.commaBroken_ofChars _

theorem CommaBroken.cat (hd : d.CommaBroken) (he : e.CommaBroken) : (d ++ e).CommaBroken := by
  rw [CommaBroken, marks_cat]
  exact Marks.CommaBroken.append hd he

theorem commaBroken_separatedMarks {items : List Doc} (h : ∀ d ∈ items, d.CommaBroken) :
    (separatedMarks items).CommaBroken := by
  cases items with
  | nil => exact .nil
  | cons first rest =>
    rw [List.forall_mem_cons] at h
    refine h.1.append ?_
    replace h := h.2
    induction rest with
    | nil => exact .nil
    | cons item rest ih =>
      rw [List.forall_mem_cons] at h
      exact .comma (h.1.append (ih h.2))

theorem commaBroken_bracketed {items : List Doc} (opening closing : String)
    (h : ∀ d ∈ items, d.CommaBroken) : (bracketed opening items closing).CommaBroken := by
  rw [CommaBroken, marks_bracketed]
  exact ((Marks.commaBroken_ofChars _).append (commaBroken_separatedMarks h)).append
    (Marks.commaBroken_ofChars _)

/-- Lines are broken only after commas, in front of visible characters. -/
structure Neat (d : Doc) : Prop where
  broken : d.CommaBroken
  tidy : d.Tidy

theorem Neat.cat (hd : d.Neat) (he : e.Neat) : (d ++ e).Neat :=
  ⟨hd.broken.cat he.broken, hd.tidy.cat he.tidy⟩

theorem neat_ofText {s : String} (h : '\n' ∉ s.toList) : (ofText s).Neat :=
  ⟨commaBroken_ofText s, tidy_ofText h⟩

/-- **Every line of a neat document that ends in a visible character does so too.** -/
theorem Neat.solid_render (h : d.Neat) {ending : String} (front : List Char) {last : Char}
    (hending : ending.toList = front ++ [last]) (hfront : '\n' ∉ front)
    (hlast : isBlank last = false) (width : Nat) :
    ∀ l ∈ split ((d ++ ofText ending).render width).toList, Solid l := by
  have hspells := spells_render width (d ++ ofText ending)
  rw [marks_cat, marks_ofText, hending, Marks.ofChars, List.map_append, ← List.append_assoc]
    at hspells
  obtain ⟨s, t, hrender, hs, ht⟩ := Marks.spells_append hspells
  obtain rfl : t = [last] := Marks.eq_of_spells_ofChars ht
  have hmarks : (d.marks ++ Marks.ofChars front).CommaBroken :=
    Marks.CommaBroken.append h.broken (Marks.commaBroken_ofChars front)
  have hline : some '\n' ∉ d.marks ++ Marks.ofChars front :=
    (Marks.tidy_append h.tidy (Marks.tidy_ofChars hfront)).newline_notMem
  rw [hrender]
  exact Marks.solid_split hmarks hline hs hlast

end Doc

namespace Code

/-! ## Lines of expressions -/

namespace Expr

theorem commaBroken_operand {d : Doc} (parens : Bool) (h : d.CommaBroken) :
    (if parens then parenthesized d else d).CommaBroken := by
  cases parens with
  | false => exact h
  | true => exact ((Doc.commaBroken_ofText _).cat h).cat (Doc.commaBroken_ofText _)

mutual

/-- **Expressions are broken after commas only.** -/
theorem commaBroken_doc (e : Expr) : e.doc.CommaBroken := by
  have htext := Doc.commaBroken_ofText
  cases e with
  | ident | int | float | bool | str | null | new => exact htext _
  | call callee args =>
    exact (commaBroken_doc callee).cat (Doc.commaBroken_bracketed _ _ (commaBroken_docs args))
  | field base name | arrow base name => exact ((commaBroken_doc base).cat (htext _)).cat (htext _)
  | index base position =>
    exact (((commaBroken_doc base).cat (htext _)).cat (commaBroken_doc position)).cat (htext _)
  | addressOf operand | not operand | cast type operand =>
    exact (htext _).cat (commaBroken_doc operand)
  | binary op left right =>
    exact ((commaBroken_operand _ (commaBroken_doc left)).cat (htext _)).cat
      (commaBroken_operand _ (commaBroken_doc right))
  | list items => exact Doc.commaBroken_bracketed _ _ (commaBroken_docs items)

theorem commaBroken_docs (items : List Expr) : ∀ d ∈ docs items, d.CommaBroken := by
  cases items with
  | nil => exact fun _ hd => absurd hd List.not_mem_nil
  | cons e rest => exact List.forall_mem_cons.2 ⟨commaBroken_doc e, commaBroken_docs rest⟩

end

end Expr

section Tame

variable {A : Alphabet} {e : Expr}

theorem doc_zero : (Expr.float .zero).doc = .text "0.0" := by
  have hwrite : doubleStyle.write .zero = "0.0" := by decide
  rw [Expr.doc, hwrite]
  rfl

theorem Tame.neat (h : Tame A e) : e.doc.Neat := by
  refine ⟨e.commaBroken_doc, ?_⟩
  rcases h with rfl | h
  · rw [doc_zero]
    exact Marks.tidy_ofChars (by decide)
  · exact h.tidy

theorem Tame.starts (h : Tame A e) : e.doc.marks.Starts (· ≠ ' ') := by
  rcases h with rfl | h
  · rw [doc_zero]
    exact ⟨'0', _, rfl, by decide⟩
  · refine h.opens.imp fun c hc => ?_
    rintro rfl
    exact hc (by decide)

theorem neat_arguments {args : List Expr} (h : ∀ a ∈ args, Tame A a) :
    (Doc.bracketed "(" (Expr.docs args) ")").Neat := by
  refine ⟨Doc.commaBroken_bracketed _ _ (Expr.commaBroken_docs args), ?_⟩
  rw [Expr.docs_eq_map]
  exact Doc.tidy_bracketed (by decide) (by decide)
    (List.forall_mem_map.2 fun a ha => (h a ha).neat.tidy)
    (List.forall_mem_map.2 fun a ha => (h a ha).starts)

end Tame

theorem Signature.commaBroken_doc (head : Signature) : head.doc.CommaBroken := by
  have htext := Doc.commaBroken_ofText
  have hparams : (Doc.commaSeparated (head.params.map fun p => Doc.ofText p.text)).CommaBroken := by
    rw [Doc.CommaBroken, Doc.marks_commaSeparated]
    exact Doc.commaBroken_separatedMarks (List.forall_mem_map.2 fun p _ => htext p.text)
  have hindent := hparams
  rw [Doc.CommaBroken, ← Doc.marks_indent Doc.continuation] at hindent
  rw [doc, Doc.CommaBroken, Doc.marks_grouped]
  exact (((htext _).cat (htext _)).cat hindent).cat (htext _)

/-! ## Lines of chunks -/

namespace Chunk

variable {unit : String} {c : Chunk} {chunks : List Chunk}

/-- The lines of a chunk, with the margin before those that are not empty. -/
def printedLines (unit : String) (c : Chunk) : List (List Char) :=
  (split (c.content unit)).map fun l => if l = [] then [] else Writer.marginAt unit c.level ++ l

/-- No line has a blank at its end. -/
def Settled (unit : String) (c : Chunk) : Prop := ∀ l ∈ split (c.content unit), Text.Settled l

/-- Every line ends in a visible character. -/
def Solid (unit : String) (c : Chunk) : Prop := ∀ l ∈ split (c.content unit), Text.Solid l

theorem Solid.settled (h : c.Solid unit) : c.Settled unit := fun l hl => .inr (h l hl)

theorem printedLines_ne_nil (unit : String) (c : Chunk) : c.printedLines unit ≠ [] := by
  simpa [printedLines] using split_ne_nil (c.content unit)

theorem toList_print : (c.print unit).toList = (c.printedLines unit).flatMap (· ++ ['\n']) := by
  rw [print, String.toList_ofList, ← flatMap_split, indented_lines _ (newline_notMem_split _),
    printedLines, List.flatMap_map]

theorem newline_notMem_marginAt (hunit : '\n' ∉ unit.toList) (level : Nat) :
    '\n' ∉ Writer.marginAt unit level := by
  simp only [Writer.marginAt, String.toList_join, List.mem_flatMap, List.mem_replicate]
  rintro ⟨s, ⟨-, rfl⟩, hs⟩
  exact hunit hs

/-- A margin settles nothing and unsettles nothing. -/
theorem Settled.printedLines (hunit : '\n' ∉ unit.toList) (h : c.Settled unit) :
    ∀ l ∈ c.printedLines unit, Text.Settled l := by
  rw [Chunk.printedLines, List.forall_mem_map]
  intro l hl
  rcases h l hl with rfl | hsolid
  · exact .inl rfl
  · rw [if_neg hsolid.ne_nil]
    exact .inr (hsolid.append (newline_notMem_marginAt hunit c.level))

theorem Solid.printedLines_ne_nil (h : c.Solid unit) : ∀ l ∈ c.printedLines unit, l ≠ [] := by
  rw [Chunk.printedLines, List.forall_mem_map]
  intro l hl
  rw [if_neg (h l hl).ne_nil]
  simp [(h l hl).ne_nil]

theorem settled_text {s : String} (level : Nat) (h : Text.Settled s.toList) :
    (Chunk.text level s).Settled unit := by
  rw [Settled, content, split_line h.line]
  exact List.forall_mem_singleton.2 h

theorem solid_text {s : String} (level : Nat) (h : Text.Solid s.toList) :
    (Chunk.text level s).Solid unit := by
  rw [Solid, content, split_line h.line]
  exact List.forall_mem_singleton.2 h

theorem solid_stmt {d : Doc} (level : Nat) (h : d.Neat) : (stmt level d).Solid unit :=
  h.solid_render [] rfl List.not_mem_nil (by decide) _

theorem solid_opening {d : Doc} (level : Nat) (h : d.Neat) : (opening level d).Solid unit :=
  h.solid_render [' '] rfl (by decide) (by decide) _

theorem solid_closing (level : Nat) : (closing level).Solid unit :=
  solid_text level (solid_singleton (by decide))

end Chunk

/-- **Printed code is its lines,** each ended by a newline. -/
theorem printChunks_eq_lines (unit : String) (chunks : List Chunk) :
    (printChunks unit chunks).toList =
      (chunks.flatMap (Chunk.printedLines unit)).flatMap (· ++ ['\n']) := by
  induction chunks with
  | nil => rfl
  | cons c chunks ih =>
    rw [printChunks_cons, String.toList_append, Chunk.toList_print, ih, List.flatMap_cons,
      List.flatMap_append]

/-! ## Lines of statements -/

mutual

/-- The words of a statement stand on one line, and its comments end in a visible character. -/
def Stmt.Worded : Stmt → Prop
  | .includeSystem header => '\n' ∉ header.toList
  | .includeLocal header => '\n' ∉ header.toList
  | .comment text => Text.Solid text.toList
  | .pragma text => Text.Solid text.toList
  | .decl type name _ => '\n' ∉ type.toList ∧ '\n' ∉ name.toList
  | .construct type name _ => '\n' ∉ type.toList ∧ '\n' ∉ name.toList
  | .ifThen _ body => Stmt.WordedAll body
  | .forRange var _ body => '\n' ∉ var.toList ∧ Stmt.WordedAll body
  | .scope body => Stmt.WordedAll body
  | .structType name fields =>
    '\n' ∉ name.toList ∧ ∀ f ∈ fields, '\n' ∉ f.1.toList ∧ '\n' ∉ f.2.toList
  | .prototype head => head.doc.Tidy
  | .function head body => head.doc.Tidy ∧ Stmt.WordedAll body
  | _ => True

def Stmt.WordedAll : List Stmt → Prop
  | [] => True
  | s :: rest => s.Worded ∧ Stmt.WordedAll rest

end

namespace Stmt

variable {A : Alphabet} {unit : String}

theorem wordedAll_iff {stmts : List Stmt} : WordedAll stmts ↔ ∀ s ∈ stmts, s.Worded := by
  induction stmts with
  | nil => simp [WordedAll]
  | cons s rest ih => rw [WordedAll, ih, List.forall_mem_cons]

theorem chunksAll_eq (stmts : List Stmt) (n : Nat) :
    chunksAll stmts n = stmts.flatMap fun s => s.chunks n := by
  induction stmts with
  | nil => rfl
  | cons s rest ih => rw [chunksAll, ih, List.flatMap_cons]

theorem chunksAll_append (first rest : List Stmt) (n : Nat) :
    chunksAll (first ++ rest) n = chunksAll first n ++ chunksAll rest n := by
  simp [chunksAll_eq]

theorem getLast?_chunksAll {stmts : List Stmt} {s : Stmt} {n : Nat} {c : Chunk}
    (hs : stmts.getLast? = some s) (hc : (s.chunks n).getLast? = some c) :
    (chunksAll stmts n).getLast? = some c := by
  obtain ⟨front, rfl⟩ := List.getLast?_eq_some_iff.1 hs
  rw [chunksAll_eq, List.flatMap_append, List.flatMap_singleton, List.getLast?_append, hc]
  rfl

/-- The chunks of a block. -/
theorem settled_block {first last : Chunk} {inner : List Chunk} (hfirst : first.Solid unit)
    (hinner : ∀ c ∈ inner, c.Settled unit) (hlast : last.Solid unit) :
    ∀ c ∈ first :: (inner ++ [last]), c.Settled unit := by
  rw [List.forall_mem_cons, List.forall_mem_append, List.forall_mem_singleton]
  exact ⟨hfirst.settled, hinner, hlast.settled⟩

mutual

/-- **The lines of a statement are settled.** -/
theorem settled_chunks (s : Stmt) (n : Nat) (hfine : Fine A s) (hworded : s.Worded) :
    ∀ c ∈ s.chunks n, c.Settled unit := by
  have hone {d : Doc} (h : d.Neat) : ∀ c ∈ [Chunk.stmt n d], c.Settled unit :=
    List.forall_mem_singleton.2 (Chunk.solid_stmt n h).settled
  have hline {s : String} (h : Text.Settled s.toList) : ∀ c ∈ [Chunk.text n s], c.Settled unit :=
    List.forall_mem_singleton.2 (Chunk.settled_text n h)
  have hname {type name : String} (h : '\n' ∉ type.toList ∧ '\n' ∉ name.toList) :
      '\n' ∉ (type ++ " " ++ name).toList := by simp [h]
  cases s with
  | includeSystem header | includeLocal header =>
    have hheader : '\n' ∉ header.toList := hworded
    exact hline (.inr (solid_ended (by simpa using hheader) rfl (by decide)))
  | comment text | pragma text =>
    refine hline (.inr ?_)
    rw [String.toList_append]
    exact hworded.append (by decide)
  | blank => exact hline (.inl rfl)
  | decl type name init =>
    cases init with
    | none => exact hone (Doc.neat_ofText (hname hworded))
    | some e =>
      have he : Tame A e := hfine e (List.mem_singleton_self e)
      exact hone (((Doc.neat_ofText (hname hworded)).cat (Doc.neat_ofText (by decide))).cat he.neat)
  | construct type name args =>
    refine hone ((Doc.neat_ofText ?_).cat (neat_arguments (fine_construct.1 hfine)))
    simpa using hname hworded
  | assign target value | addAssign target value =>
    have htarget : Tame A target := hfine target List.mem_cons_self
    have hvalue : Tame A value := hfine value (List.mem_cons_of_mem _ List.mem_cons_self)
    exact hone ((htarget.neat.cat (Doc.neat_ofText (by decide))).cat hvalue.neat)
  | expr e => exact hone (fine_expr.1 hfine).neat
  | ifThen cond body =>
    obtain ⟨hcond, hbody⟩ := fine_ifThen.1 hfine
    refine settled_block (Chunk.solid_opening n ?_) (settled_chunksAll body _ hbody hworded)
      (Chunk.solid_closing n)
    exact ((Doc.neat_ofText (by decide)).cat hcond.neat).cat (Doc.neat_ofText (by decide))
  | forRange var bound body =>
    obtain ⟨hbound, hbody⟩ := fine_forRange.1 hfine
    refine settled_block (Chunk.solid_opening n ?_) (settled_chunksAll body _ hbody hworded.2)
      (Chunk.solid_closing n)
    exact ((Doc.neat_ofText (by simpa using hworded.1)).cat hbound.neat).cat
      (Doc.neat_ofText (by simpa using hworded.1))
  | scope body =>
    exact settled_block (Chunk.solid_text n (solid_singleton (by decide)))
      (settled_chunksAll body _ (fine_scope.1 hfine) hworded) (Chunk.solid_closing n)
  | continueLoop => exact hline (.inr (by decide))
  | returnValue e => exact hone ((Doc.neat_ofText (by decide)).cat (fine_returnValue.1 hfine).neat)
  | delete e => exact hone ((Doc.neat_ofText (by decide)).cat (fine_delete.1 hfine).neat)
  | fragment text =>
    exact List.forall_mem_map.2 fun line hl =>
      Chunk.settled_text n (settled_fragmentLines text line hl)
  | structType name fields =>
    have hfirst : Text.Solid "typedef struct \x7b".toList := by decide
    refine settled_block (Chunk.solid_text n hfirst) (List.forall_mem_map.2 fun f hf => ?_)
      (Chunk.solid_text n (solid_ended (by simpa using hworded.1) rfl (by decide)))
    have hfield := hname (hworded.2 f hf)
    exact Chunk.settled_text _ (.inr (solid_ended hfield rfl (by decide)))
  | prototype head => exact hone ⟨head.commaBroken_doc, hworded⟩
  | function head body =>
    exact settled_block (Chunk.solid_opening n ⟨head.commaBroken_doc, hworded.1⟩)
      (settled_chunksAll body _ (fine_function.1 hfine) hworded.2) (Chunk.solid_closing n)

theorem settled_chunksAll (stmts : List Stmt) (n : Nat) (hfine : ∀ s ∈ stmts, Fine A s)
    (hworded : WordedAll stmts) : ∀ c ∈ chunksAll stmts n, c.Settled unit := by
  cases stmts with
  | nil => exact fun _ hc => absurd hc List.not_mem_nil
  | cons s rest =>
    rw [List.forall_mem_cons] at hfine
    exact List.forall_mem_append.2 ⟨settled_chunks s n hfine.1 hworded.1,
      settled_chunksAll rest n hfine.2 hworded.2⟩

end

end Stmt

/-! ## Printing what was printed -/

/-- A line one level further in; an empty line stays empty. -/
def nested (line : String) : String := if line = "" then "" else "  " ++ line

theorem drop_nested (line : String) : String.ofList ((nested line).toList.drop 2) = line := by
  unfold nested
  split
  · next h => rw [h]; rfl
  · simp

theorem indented_nil (atStart : Bool) (s : List Char) : indented [] atStart s = s := by
  induction s generalizing atStart with
  | nil => rfl
  | cons c s ih =>
    unfold indented
    split
    · rw [ih]
    · split <;> simp [ih]

namespace Chunk

variable {unit : String} {chunks : List Chunk}

/-- Without indentation, a chunk is printed as it is. -/
theorem print_outermost {c : Chunk} (h : c.level = 0) :
    c.print unit = String.ofList (c.content unit) ++ "\n" := by
  have hmargin : Writer.marginAt unit c.level = [] := by
    rw [h]
    rfl
  rw [print, hmargin, indented_nil, String.ofList_append]

theorem print_nested {line : String} (h : '\n' ∉ line.toList) :
    (Chunk.text 1 line).print "  " = nested line ++ "\n" := by
  have hmargin : Writer.marginAt "  " 1 = [' ', ' '] := by decide
  have hline : indented [' ', ' '] true (line.toList ++ ['\n']) =
      (if line.toList = [] then [] else [' ', ' '] ++ line.toList) ++ ['\n'] := indented_line h
  rw [print, content, level, hmargin, hline, nested, ← String.toList_inj]
  by_cases hempty : line = "" <;> simp [hempty]

theorem printChunks_nested {lines : List String} (h : ∀ line ∈ lines, '\n' ∉ line.toList) :
    printChunks "  " (lines.map (.text 1)) = unlines (lines.map nested) := by
  induction lines with
  | nil => rfl
  | cons line lines ih =>
    rw [List.forall_mem_cons] at h
    rw [List.map_cons, printChunks_cons, print_nested h.1, ih h.2, List.map_cons, unlines_cons]

theorem mem_printedLines_of_head? {first : Chunk} (h : chunks.head? = some first) {l : List Char}
    (hl : (chunks.flatMap (printedLines unit)).head? = some l) : l ∈ first.printedLines unit := by
  obtain ⟨rest, rfl⟩ := List.head?_eq_some_iff.1 h
  obtain ⟨m, ms, hlines⟩ := List.exists_cons_of_ne_nil (printedLines_ne_nil unit first)
  rw [List.flatMap_cons, hlines, List.cons_append, List.head?_cons] at hl
  rw [hlines, Option.some.inj hl]
  exact List.mem_cons_self

theorem mem_printedLines_of_getLast? {last : Chunk} (h : chunks.getLast? = some last)
    {l : List Char} (hl : (chunks.flatMap (printedLines unit)).getLast? = some l) :
    l ∈ last.printedLines unit := by
  obtain ⟨front, rfl⟩ := List.getLast?_eq_some_iff.1 h
  rw [List.flatMap_append, List.flatMap_singleton,
    List.getLast?_append_of_ne_nil _ (printedLines_ne_nil unit last)] at hl
  exact List.mem_of_getLast? hl

end Chunk

/-- **Settled code is unchanged when it is printed again,** if it starts and ends with solid
lines: cut into the lines of a fragment, it is made of these lines. -/
theorem unlines_fragmentLines_render {stmts : List Stmt}
    (hsettled : ∀ c ∈ Stmt.chunksAll stmts 0, c.Settled "  ") {first last : Chunk}
    (hfirst : (Stmt.chunksAll stmts 0).head? = some first) (hsolid : first.Solid "  ")
    (hlast : (Stmt.chunksAll stmts 0).getLast? = some last) (hsolid' : last.Solid "  ") :
    unlines (fragmentLines (render stmts)) = render stmts := by
  have hrender : render stmts = String.ofList
      (((Stmt.chunksAll stmts 0).flatMap (Chunk.printedLines "  ")).flatMap (· ++ ['\n'])) := by
    rw [render_eq_chunks, ← printChunks_eq_lines, String.ofList_toList]
  have hlines : ∀ l ∈ (Stmt.chunksAll stmts 0).flatMap (Chunk.printedLines "  "),
      Text.Settled l := by
    rw [List.forall_mem_flatMap]
    exact fun c hc => (hsettled c hc).printedLines (by decide)
  rw [hrender, fragmentLines_lines hlines, unlines_ofList]
  · intro l hl
    exact hsolid.printedLines_ne_nil l (Chunk.mem_printedLines_of_head? hfirst hl)
  · intro l hl
    exact hsolid'.printedLines_ne_nil l (Chunk.mem_printedLines_of_getLast? hlast hl)

end Code

end SparseTiling
