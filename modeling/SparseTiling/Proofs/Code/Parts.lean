import SparseTiling.Proofs.Code.Lines

/-!
# Printing code in parts

One writer is handed from statement to statement and into their blocks, and documents are laid
out in the width that its indentation leaves. Still, each statement is printed as if it stood
alone at its level, so code may be printed part by part.

* `textAt`: statements printed on their own, at a level of indentation.
* `textAt_append`, `textAt_newline`: parts in a row, and how the last line ends.
* `printing_is_compositional`: what printing does to a writer at the start of a line.
-/

namespace SparseTiling.Code

variable {unit : String} {level : Nat}

/-- The text of statements at a level of indentation, printed on their own. -/
def textAt (unit : String) (level : Nat) (stmts : List Stmt) : String :=
  (Stmt.printAll stmts { unit, level }).output

theorem textAt_eq_chunks (stmts : List Stmt) :
    textAt unit level stmts = printChunks unit (Stmt.chunksAll stmts level) := by
  rw [textAt, Stmt.printAll_eq stmts _ rfl]
  exact String.empty_append

/-- **Parts in a row are printed one after the other.** -/
theorem textAt_append (xs ys : List Stmt) :
    textAt unit level (xs ++ ys) = textAt unit level xs ++ textAt unit level ys := by
  simp only [textAt_eq_chunks, Stmt.chunksAll_append, printChunks_append]

/-- Printed code is empty, or its last line is ended. -/
theorem textAt_newline (stmts : List Stmt) :
    textAt unit level stmts = "" ∨ ∃ front, textAt unit level stmts = front ++ "\n" := by
  have hlines := printChunks_eq_lines unit (Stmt.chunksAll stmts level)
  rw [← textAt_eq_chunks] at hlines
  rcases List.eq_nil_or_concat
    ((Stmt.chunksAll stmts level).flatMap (Chunk.printedLines unit)) with hnone | ⟨front, last, hcut⟩
  · left
    rw [hnone] at hlines
    exact String.toList_eq_nil_iff.1 hlines
  · right
    refine ⟨String.ofList (front.flatMap (· ++ ['\n']) ++ last), ?_⟩
    rw [hcut] at hlines
    rw [← String.toList_inj, hlines]
    simp

/-- **Code can be printed in parts.** From whatever was written before, as long as a new line has
begun, printing statements goes back to the level it started from, ends at the start of a line and
only appends the text that they have at that level when they are printed on their own. So the text
of two programs in a row is that of the first and that of the second, and a program is empty or
ends its last line. -/
theorem printing_is_compositional :
    (∀ (w : Writer) (stmts : List Stmt), w.atLineStart = true →
      (Stmt.printAll stmts w).level = w.level ∧ (Stmt.printAll stmts w).unit = w.unit ∧
        (Stmt.printAll stmts w).atLineStart = true ∧
        (Stmt.printAll stmts w).output = w.output ++ textAt w.unit w.level stmts) ∧
    (∀ xs ys : List Stmt, render (xs ++ ys) = render xs ++ render ys) ∧
    ∀ xs : List Stmt, render xs = "" ∨ ∃ front, render xs = front ++ "\n" := by
  refine ⟨fun w stmts hw => ?_, fun xs ys => ?_, fun xs => ?_⟩
  · rw [Stmt.printAll_eq stmts w hw, textAt_eq_chunks]
    exact ⟨rfl, rfl, hw, rfl⟩
  · exact textAt_append xs ys
  · exact textAt_newline xs

/-- A block and a fragment, two levels deep in a program that has begun. -/
theorem printing_is_compositional_nested :
    (Stmt.printAll [.scope [.ifThen (.ident "done") [.continueLoop]], .fragment "a\n\n b"]
        { output := "// tiles\n", level := 2 }).level = 2 ∧
      (Stmt.printAll [.scope [.ifThen (.ident "done") [.continueLoop]], .fragment "a\n\n b"]
        { output := "// tiles\n", level := 2 }).output =
        "// tiles\n" ++ ("    \x7b\n      if (done) \x7b\n        continue;\n      \x7d\n    \x7d\n" ++
          "    a\n\n     b\n") := by
  have htext : textAt "  " 2 [.scope [.ifThen (.ident "done") [.continueLoop]],
      .fragment "a\n\n b"] =
        "    \x7b\n      if (done) \x7b\n        continue;\n      \x7d\n    \x7d\n" ++
          "    a\n\n     b\n" := by cbv
  obtain ⟨hlevel, -, -, houtput⟩ := printing_is_compositional.1
    { output := "// tiles\n", level := 2 }
    [.scope [.ifThen (.ident "done") [.continueLoop]], .fragment "a\n\n b"] rfl
  rw [htext] at houtput
  exact ⟨hlevel, houtput⟩

end SparseTiling.Code
