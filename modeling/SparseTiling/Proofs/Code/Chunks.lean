import SparseTiling.Code.Print
import SparseTiling.Proofs.Layout.Greedy

/-!
# What printing appends

Printing a statement appends lines of text and laid out documents, each at a level of
indentation. What is appended depends on the statements, the level and the indentation of
one level, and on nothing that was printed before.

* `indented`: a text with a margin before every line that is not empty.
* `Chunk`, `Stmt.chunks`: the texts and documents that a statement is printed as.
* `print_eq`, `printAll_eq`: printing appends the chunks and changes nothing else.
-/

namespace SparseTiling.Code

/-! ## Margins -/

/-- A text with a margin before the first character of every line that is not empty. -/
def indented (margin : List Char) (atStart : Bool) : List Char → List Char
  | [] => []
  | c :: s =>
    if c = '\n' then c :: indented margin true s
    else if atStart then margin ++ c :: indented margin false s
    else c :: indented margin false s

variable {margin l rest : List Char}

theorem indented_false_append (hl : '\n' ∉ l) :
    indented margin false (l ++ rest) = l ++ indented margin false rest := by
  induction l with
  | nil => rfl
  | cons c l ih =>
    obtain ⟨hc, hl⟩ := not_or.1 (mt List.mem_cons.2 hl)
    rw [List.cons_append, indented, if_neg (Ne.symm hc), if_neg (by simp), ih hl,
      List.cons_append]

/-- A line gets the margin unless it is empty. -/
theorem indented_line (hl : '\n' ∉ l) :
    indented margin true (l ++ '\n' :: rest) =
      (if l = [] then [] else margin ++ l) ++ '\n' :: indented margin true rest := by
  cases l with
  | nil => simp [indented]
  | cons c l =>
    obtain ⟨hc, hl⟩ := not_or.1 (mt List.mem_cons.2 hl)
    rw [List.cons_append, indented, if_neg (Ne.symm hc), if_pos rfl, indented_false_append hl,
      indented, if_pos rfl, if_neg (List.cons_ne_nil c l)]
    simp

theorem indented_lines (margin : List Char) {lines : List (List Char)} (h : ∀ l ∈ lines, '\n' ∉ l) :
    indented margin true (lines.flatMap (· ++ ['\n'])) =
      lines.flatMap fun l => (if l = [] then [] else margin ++ l) ++ ['\n'] := by
  induction lines with
  | nil => rfl
  | cons l lines ih =>
    rw [List.forall_mem_cons] at h
    rw [List.flatMap_cons, List.append_assoc, List.singleton_append, indented_line h.1, ih h.2,
      List.flatMap_cons, List.append_assoc, List.singleton_append]

/-! ## Writing -/

namespace Writer

/-- The writer with more output. -/
def append (w : Writer) (s : String) : Writer := { w with output := w.output ++ s }

/-- The margin of a level. -/
def marginAt (unit : String) (level : Nat) : List Char :=
  (String.join (List.replicate level unit)).toList

variable {w : Writer}

@[simp] theorem append_level (s : String) : (w.append s).level = w.level := rfl

@[simp] theorem append_unit (s : String) : (w.append s).unit = w.unit := rfl

@[simp] theorem append_atLineStart (s : String) : (w.append s).atLineStart = w.atLineStart := rfl

@[simp] theorem append_append (s t : String) : (w.append s).append t = w.append (s ++ t) := by
  simp [append, String.append_assoc]

/-- A newline ends the line, with no margin before it. -/
theorem put_newline (w : Writer) :
    w.put '\n' = { w with output := w.output.push '\n', atLineStart := true } := by
  rw [put, if_pos rfl]

/-- Any other character stands behind the margin if a line starts with it, and the line has then
begun. -/
theorem put_of_ne {c : Char} (hc : c ≠ '\n') (w : Writer) : w.put c =
    { w with
      output := (w.output ++ (if w.atLineStart then w.margin else "")).push c
      atLineStart := false } := by
  rw [put, if_neg hc]
  cases w.atLineStart <;> simp

/-- Characters are appended with the margin in front of them where a line starts. -/
theorem foldl_put (w : Writer) (s : List Char) :
    ∃ atStart, s.foldl put w = { w with
      output := w.output ++ String.ofList (indented (marginAt w.unit w.level) w.atLineStart s)
      atLineStart := atStart } := by
  induction s generalizing w with
  | nil => exact ⟨w.atLineStart, by simp [indented]⟩
  | cons c s ih =>
    obtain ⟨atStart, h⟩ := ih (w.put c)
    refine ⟨atStart, ?_⟩
    rw [List.foldl_cons, h, indented]
    by_cases hc : c = '\n'
    · rw [if_pos hc, hc, put_newline]
      congr 1
      simp [← String.toList_inj]
    · rw [if_neg hc, put_of_ne hc]
      congr 1
      cases w.atLineStart <;> simp [← String.toList_inj, margin, marginAt]

/-- A line that is written at the start of a line is appended with its margin. -/
theorem writeLine_eq (h : w.atLineStart = true) (s : String) :
    w.writeLine s = w.append (String.ofList
      (indented (marginAt w.unit w.level) true (s.toList ++ ['\n']))) := by
  obtain ⟨atStart, hput⟩ := foldl_put w (s.toList ++ ['\n'])
  have hline : w.writeLine s = (s.toList ++ ['\n']).foldl put w := by
    simp [writeLine, write, newline]
  have hend : (w.writeLine s).atLineStart = true := by
    simp [writeLine, newline, put]
  rw [hline] at hend ⊢
  rw [hput] at hend ⊢
  rw [h] at hend ⊢
  obtain rfl : atStart = true := hend
  simp [append, h]

end Writer

/-! ## Chunks -/

/-- What is printed at once: a text of whole lines, or a document, at a level. -/
inductive Chunk
  | text (level : Nat) (s : String)
  | doc (level : Nat) (d : Doc)

namespace Chunk

def level : Chunk → Nat
  | .text level _ => level
  | .doc level _ => level

/-- The width that a level leaves to documents. -/
def room (unit : String) (level : Nat) : Nat :=
  max (pageWidth - level * unit.utf8ByteSize) leastWidth

/-- What is printed, without its margin. -/
def content (unit : String) : Chunk → List Char
  | .text _ s => s.toList
  | .doc level d => (d.render (room unit level)).toList

/-- The text of a chunk. -/
def print (unit : String) (c : Chunk) : String :=
  String.ofList (indented (Writer.marginAt unit c.level) true (c.content unit ++ ['\n']))

/-- A document as a statement. -/
def stmt (level : Nat) (d : Doc) : Chunk := .doc level (d ++ Doc.ofText ";")

/-- A document that opens a block. -/
def opening (level : Nat) (head : Doc) : Chunk := .doc level (head ++ Doc.ofText " \x7b")

/-- The end of a block. -/
def closing (level : Nat) : Chunk := .text level "\x7d"

end Chunk

/-- The text of chunks in a row. -/
def printChunks (unit : String) (chunks : List Chunk) : String :=
  String.join (chunks.map (Chunk.print unit))

namespace Stmt

mutual

/-- The chunks that a statement is printed as. -/
def chunks : Stmt → Nat → List Chunk
  | .includeSystem header, n => [.text n ("#include <" ++ header ++ ">")]
  | .includeLocal header, n => [.text n ("#include \"" ++ header ++ "\"")]
  | .comment text, n => [.text n ("// " ++ text)]
  | .blank, n => [.text n ""]
  | .decl type name none, n => [.stmt n (Doc.ofText (type ++ " " ++ name))]
  | .decl type name (some init), n =>
    [.stmt n (Doc.ofText (type ++ " " ++ name) ++ Doc.ofText " = " ++ init.doc)]
  | .construct type name args, n =>
    [.stmt n (Doc.ofText (type ++ " " ++ name ++ " ") ++ Doc.bracketed "(" (Expr.docs args) ")")]
  | .assign target value, n => [.stmt n (target.doc ++ Doc.ofText " = " ++ value.doc)]
  | .addAssign target value, n => [.stmt n (target.doc ++ Doc.ofText " += " ++ value.doc)]
  | .expr e, n => [.stmt n e.doc]
  | .ifThen cond body, n =>
    .opening n (Doc.ofText "if (" ++ cond.doc ++ Doc.ofText ")") ::
      (chunksAll body (n + 1) ++ [.closing n])
  | .forRange var bound body, n =>
    .opening n (forHead var bound) :: (chunksAll body (n + 1) ++ [.closing n])
  | .pragma text, n => [.text n ("#pragma " ++ text)]
  | .scope body, n => .text n "\x7b" :: (chunksAll body (n + 1) ++ [.closing n])
  | .continueLoop, n => [.text n "continue;"]
  | .returnValue e, n => [.stmt n (Doc.ofText "return " ++ e.doc)]
  | .delete e, n => [.stmt n (Doc.ofText "delete " ++ e.doc)]
  | .fragment text, n => (Text.fragmentLines text).map (.text n)
  | .structType name fields, n =>
    .text n "typedef struct \x7b" ::
      (fields.map (fun f => .text (n + 1) (f.1 ++ " " ++ f.2 ++ ";")) ++
        [.text n ("\x7d " ++ name ++ ";")])
  | .prototype head, n => [.stmt n head.doc]
  | .function head body, n => .opening n head.doc :: (chunksAll body (n + 1) ++ [.closing n])

/-- The chunks that statements are printed as, one after another. -/
def chunksAll : List Stmt → Nat → List Chunk
  | [], _ => []
  | s :: rest, n => s.chunks n ++ chunksAll rest n

end

end Stmt

/-! ## Printing -/

section Writing

variable {unit : String} {w : Writer}

@[simp] theorem printChunks_nil : printChunks unit [] = "" := rfl

@[simp] theorem printChunks_append (first rest : List Chunk) :
    printChunks unit (first ++ rest) = printChunks unit first ++ printChunks unit rest := by
  simp [printChunks]

@[simp] theorem printChunks_cons (c : Chunk) (rest : List Chunk) :
    printChunks unit (c :: rest) = c.print unit ++ printChunks unit rest := by
  simp [printChunks]

theorem writeLine_chunk (h : w.atLineStart = true) (s : String) :
    w.writeLine s = w.append (printChunks w.unit [.text w.level s]) := by
  rw [Writer.writeLine_eq h, printChunks_cons, printChunks_nil, String.append_empty]
  rfl

theorem writeDoc_chunk (h : w.atLineStart = true) (d : Doc) :
    w.writeDoc d = w.append (printChunks w.unit [.doc w.level d]) := by
  rw [Writer.writeDoc, Writer.writeLine_eq h, printChunks_cons, printChunks_nil,
    String.append_empty]
  rfl

theorem foldl_writeLine (h : w.atLineStart = true) (lines : List String) :
    lines.foldl Writer.writeLine w =
      w.append (printChunks w.unit (lines.map (.text w.level))) := by
  induction lines generalizing w with
  | nil => simp [Writer.append]
  | cons s lines ih =>
    rw [List.foldl_cons, writeLine_chunk h, ih (w := w.append _) h, List.map_cons,
      Writer.append_append]
    simp

/-- What is indented leaves the level as it was before. -/
theorem dedent_chunk (h : w.atLineStart = true) (inner s : String) :
    (w.indent.append inner).dedent.writeLine s =
      w.append (inner ++ printChunks w.unit [.text w.level s]) := by
  have hdedent : (w.indent.append inner).dedent = w.append inner := rfl
  rw [hdedent, writeLine_chunk (w := w.append inner) h, Writer.append_append]
  rfl

end Writing

namespace Stmt

/-- Printing a block whose statements are printed as chunks. -/
theorem printBlock_eq {w : Writer} {body : List Stmt} (h : w.atLineStart = true) (first : Chunk)
    (hbody : ∀ v : Writer, v.atLineStart = true →
      printAll body v = v.append (printChunks v.unit (chunksAll body v.level))) :
    (printAll body (w.append (printChunks w.unit [first])).indent).closeBlock =
      w.append (printChunks w.unit
        (first :: (chunksAll body (w.level + 1) ++ [.closing w.level]))) := by
  rw [hbody (w.append _).indent h, Writer.closeBlock, dedent_chunk (w := w.append _) h,
    Writer.append_append]
  simp [Writer.indent, Chunk.closing]

mutual

/-- **Printing a statement appends its chunks** and changes nothing else. -/
theorem print_eq (s : Stmt) (w : Writer) (h : w.atLineStart = true) :
    print s w = w.append (printChunks w.unit (s.chunks w.level)) := by
  cases s with
  | includeSystem | includeLocal | comment | pragma | continueLoop =>
    rw [print, chunks]
    exact writeLine_chunk h _
  | blank =>
    rw [print, chunks]
    exact writeLine_chunk h ""
  | decl type name init =>
    cases init with
    | none | some =>
      rw [print, chunks]
      exact writeDoc_chunk h _
  | construct | assign | addAssign | expr | returnValue | delete | prototype =>
    rw [print, chunks]
    exact writeDoc_chunk h _
  | ifThen _ body | forRange _ _ body | function _ body =>
    rw [print, chunks, Writer.openBlock, writeDoc_chunk h]
    exact printBlock_eq h _ (printAll_eq body)
  | scope body =>
    rw [print, chunks, writeLine_chunk h]
    exact printBlock_eq h _ (printAll_eq body)
  | fragment text =>
    rw [print, chunks]
    exact foldl_writeLine h _
  | structType name fields =>
    have hfields := foldl_writeLine
      (w := (w.append (printChunks w.unit [.text w.level "typedef struct \x7b"])).indent) h
      (fields.map fun f => f.1 ++ " " ++ f.2 ++ ";")
    rw [List.foldl_map, List.map_map] at hfields
    simp only [print, chunks]
    rw [writeLine_chunk h, hfields, dedent_chunk (w := w.append _) h, Writer.append_append]
    simp [Writer.indent, Function.comp_def]

/-- Printing statements appends their chunks one after another. -/
theorem printAll_eq (stmts : List Stmt) (w : Writer) (h : w.atLineStart = true) :
    printAll stmts w = w.append (printChunks w.unit (chunksAll stmts w.level)) := by
  cases stmts with
  | nil => simp [printAll, chunksAll, Writer.append]
  | cons s rest =>
    rw [printAll, print_eq s w h, printAll_eq rest (w.append _) h, chunksAll, Writer.append_append,
      printChunks_append]
    rfl

end

end Stmt

end SparseTiling.Code
