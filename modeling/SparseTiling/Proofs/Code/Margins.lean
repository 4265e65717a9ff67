import SparseTiling.Proofs.Code.Chunks

/-!
# Where margins stand

A writer is told about its text piece by piece, with changes of the level in between. What comes
out is the text as it was written, cut into lines, with a margin before each line that is not
empty: that of the level at which the first character of the line was written.

* `written`: the characters that calls write, each with the level in force.
* `writtenLines`, `withMargin`: their lines, and a line behind its margin.
* `continues_afterAll`: what calls append, from any state of the writer.
* `marked_afterAll`: a line has begun exactly when the output says so.
* `only_margins_added`: what is written, and nothing else than margins.
-/

namespace SparseTiling.Code.Writer

/-! ## What is written -/

/-- The text that a call writes. -/
def Call.text : Call → String
  | .indent => ""
  | .dedent => ""
  | .write s => s
  | .writeLine s => s ++ "\n"
  | .newline => "\n"

/-- The level after a call. The outermost level is never left. -/
def Call.level : Call → Nat → Nat
  | .indent, n => n + 1
  | .dedent, n => n - 1
  | _, n => n

/-- The text that calls write, one after another. -/
def textOf (calls : List Call) : String := String.join (calls.map Call.text)

/-- The characters that calls write from some level on, each with the level in force. -/
def written : Nat → List Call → List (Char × Nat)
  | _, [] => []
  | n, call :: rest => call.text.toList.map (·, n) ++ written (call.level n) rest

/-- Characters cut at the newlines among them. -/
def linesOf (cs : List (Char × Nat)) : List (List (Char × Nat)) := cs.splitOnP (·.1 == '\n')

/-- The lines that calls write from some level on. -/
def writtenLines (n : Nat) (calls : List Call) : List (List (Char × Nat)) :=
  linesOf (written n calls)

/-- The characters of a line as they were written. -/
def plain (l : List (Char × Nat)) : List Char := l.map Prod.fst

/-- A line behind the margin of the level at which its first character was written. An empty line
has none. -/
def withMargin (unit : String) : List (Char × Nat) → List Char
  | [] => []
  | first :: rest => marginAt unit first.2 ++ plain (first :: rest)

/-- Lines as they are appended: the first one goes on with the current line, if that has begun. -/
def continued (unit : String) (atStart : Bool) : List (List (Char × Nat)) → List (List Char)
  | [] => []
  | l :: ls => (if atStart then withMargin unit l else plain l) :: ls.map (withMargin unit)

/-- The writer after a sequence of calls. -/
def afterAll (w : Writer) (calls : List Call) : Writer := calls.foldl after w

variable {w : Writer} {cs : List (Char × Nat)} {out : List Char}

/-! ## Lines -/

theorem exists_linesOf (cs : List (Char × Nat)) : ∃ l ls, linesOf cs = l :: ls :=
  List.exists_cons_of_ne_nil (List.splitOnP_ne_nil _ cs)

theorem linesOf_newline (n : Nat) (cs : List (Char × Nat)) :
    linesOf (('\n', n) :: cs) = [] :: linesOf cs := by
  simp [linesOf, List.splitOnP_cons_eq_if_modifyHead]

theorem linesOf_cons {c : Char} {l : List (Char × Nat)} {ls : List (List (Char × Nat))}
    (hc : c ≠ '\n') (n : Nat) (h : linesOf cs = l :: ls) :
    linesOf ((c, n) :: cs) = ((c, n) :: l) :: ls := by
  rw [linesOf] at h ⊢
  simp [List.splitOnP_cons_eq_if_modifyHead, hc, h]

theorem intercalate_append_head (front l : List Char) (ls : List (List Char)) :
    ['\n'].intercalate ((front ++ l) :: ls) = front ++ ['\n'].intercalate (l :: ls) := by
  cases ls with
  | nil => simp
  | cons l' ls => simp [List.intercalate_cons_cons]

/-- The levels have no part in where lines end. -/
theorem map_plain_linesOf (cs : List (Char × Nat)) :
    (linesOf cs).map plain = (plain cs).splitOn '\n' := by
  induction cs with
  | nil => rfl
  | cons p cs ih =>
    obtain ⟨c, n⟩ := p
    obtain ⟨l, ls, hlines⟩ := exists_linesOf cs
    rw [hlines] at ih
    have htext : plain ((c, n) :: cs) = c :: plain cs := rfl
    rw [htext, List.splitOn_cons_eq_if_modifyHead, ← ih]
    by_cases hc : c = '\n'
    · rw [hc, linesOf_newline, hlines]
      rfl
    · rw [linesOf_cons hc n hlines, if_neg (by simpa using hc)]
      rfl

theorem plain_written (n : Nat) (calls : List Call) :
    plain (written n calls) = (textOf calls).toList := by
  induction calls generalizing n with
  | nil => rfl
  | cons call rest ih =>
    have hrest := ih (call.level n)
    rw [plain, textOf] at hrest ⊢
    rw [written, List.map_append, hrest]
    simp [Function.comp_def]

/-- **The lines are those of the text**, at whatever level it is written. -/
theorem map_plain_writtenLines (n : Nat) (calls : List Call) :
    (writtenLines n calls).map plain = (textOf calls).toList.splitOn '\n' := by
  rw [writtenLines, map_plain_linesOf, plain_written]

/-! ## What is appended -/

/-- The output of a writer that goes on with some characters, each at its level. -/
def Continues (w : Writer) (cs : List (Char × Nat)) (out : List Char) : Prop :=
  out = w.output.toList ++ ['\n'].intercalate (continued w.unit w.atLineStart (linesOf cs))

theorem continues_nil (w : Writer) : Continues w [] w.output.toList := by
  cases h : w.atLineStart <;> simp [Continues, h, linesOf, continued, withMargin, plain]

/-- **A character is appended at the level in force**, and the rest goes on from there. -/
theorem Continues.of_put {c : Char} (h : Continues (w.put c) cs out) :
    Continues w ((c, w.level) :: cs) out := by
  obtain ⟨l, ls, hlines⟩ := exists_linesOf cs
  rw [Continues, hlines] at h
  rw [Continues, h]
  by_cases hc : c = '\n'
  · -- the line ends here, so the next one starts behind a margin of its own
    have hempty : (if w.atLineStart then withMargin w.unit [] else plain []) = [] := by
      cases w.atLineStart <;> rfl
    rw [hc, linesOf_newline, hlines, put_newline]
    simp [continued, hempty, List.intercalate_cons_cons]
  · -- the line has begun, and its rest follows the character as it is
    have hfirst : (if w.atLineStart then withMargin w.unit ((c, w.level) :: l)
        else plain ((c, w.level) :: l)) =
          ((if w.atLineStart then w.margin else "").toList ++ [c]) ++ plain l := by
      cases w.atLineStart <;> simp [withMargin, plain, margin, marginAt]
    rw [linesOf_cons hc _ hlines, put_of_ne hc, continued, continued, hfirst,
      intercalate_append_head]
    simp

theorem foldl_put_level (w : Writer) (s : List Char) : (s.foldl put w).level = w.level := by
  obtain ⟨atStart, h⟩ := foldl_put w s
  rw [h]

/-- A text is appended character by character. -/
theorem Continues.of_foldl {s : List Char} (h : Continues (s.foldl put w) cs out) :
    Continues w (s.map (·, w.level) ++ cs) out := by
  induction s generalizing w with
  | nil => exact h
  | cons c s ih =>
    have hlevel : (w.put c).level = w.level := foldl_put_level w [c]
    have hrest := ih (w := w.put c) h
    rw [hlevel] at hrest
    exact hrest.of_put

/-- A change of the level touches neither the output nor the current line. -/
theorem Continues.of_after {call : Call} (h : Continues (w.after call) cs out) :
    Continues w (call.text.toList.map (·, w.level) ++ cs) out := by
  cases call with
  | indent => exact h
  | dedent => exact h
  | write s => exact Continues.of_foldl (s := s.toList) h
  | writeLine s =>
    have hchars : w.after (.writeLine s) = (s ++ "\n").toList.foldl put w := by
      simp [after, writeLine, write, newline]
    rw [hchars] at h
    exact h.of_foldl
  | newline => exact Continues.of_put h

theorem after_level (w : Writer) (call : Call) :
    (w.after call).level = call.level w.level := by
  cases call with
  | indent => rfl
  | dedent => rfl
  | write s => exact foldl_put_level w s.toList
  | writeLine s =>
    have hline := foldl_put_level w (s.toList ++ ['\n'])
    rw [List.foldl_append] at hline
    exact hline
  | newline => exact foldl_put_level w ['\n']

/-- **What calls append**, from any state: the lines that they write, with margins. -/
theorem continues_afterAll (w : Writer) (calls : List Call) :
    Continues w (written w.level calls) (w.afterAll calls).output.toList := by
  -- each call hands on another writer, and what is left to write starts at its level
  induction calls generalizing w with
  | nil => exact continues_nil w
  | cons call rest ih =>
    have hrest := ih (w.after call)
    rw [after_level] at hrest
    exact hrest.of_after

/-- Written from the start, every line stands behind its margin. -/
theorem output_afterAll_new (unit : String) (calls : List Call) :
    (afterAll { unit } calls).output.toList =
      ['\n'].intercalate ((writtenLines 0 calls).map (withMargin unit)) := by
  have h := continues_afterAll { unit } calls
  obtain ⟨l, ls, hlines⟩ := exists_linesOf (written 0 calls)
  rw [writtenLines, hlines]
  rw [Continues, hlines] at h
  exact h

/-- Written into a line that has begun, the rest of that line has no margin. -/
theorem output_afterAll_begun (hw : w.atLineStart = false) (calls : List Call)
    {line : List Char} {lines : List (List Char)}
    (hcut : (textOf calls).toList.splitOn '\n' = line :: lines) :
    (w.afterAll calls).output.toList = w.output.toList ++
      ['\n'].intercalate (line :: (writtenLines w.level calls).tail.map (withMargin w.unit)) := by
  have h := continues_afterAll w calls
  obtain ⟨l, ls, hlines⟩ := exists_linesOf (written w.level calls)
  have hplain := map_plain_writtenLines w.level calls
  rw [writtenLines, hlines, hcut, List.map_cons] at hplain
  rw [writtenLines, hlines, ← (List.cons.inj hplain).1]
  rw [Continues, hlines, hw] at h
  exact h

/-! ## Lines that have begun -/

/-- A line is said to start where the output is empty or its last line has ended. -/
def Marked (w : Writer) : Prop :=
  w.atLineStart = true ↔ w.output = "" ∨ ∃ front, w.output = front ++ "\n"

/-- A character says by itself whether a line starts after it. -/
theorem marked_put (w : Writer) (c : Char) : (w.put c).Marked := by
  have hends : ∀ s front : String, s.push c = front ++ "\n" → c = '\n' := by
    intro s front h
    have hlast := congrArg (fun t : String => t.toList.getLast?) h
    simpa using hlast
  have hfull : ∀ s : String, s.push c ≠ "" := by
    intro s h
    simpa using congrArg String.toList h
  by_cases hc : c = '\n'
  · rw [hc, put_newline]
    exact ⟨fun _ => .inr ⟨w.output, rfl⟩, fun _ => rfl⟩
  · rw [Marked, put_of_ne hc]
    dsimp only
    constructor
    · intro h
      exact absurd h Bool.false_ne_true
    · rintro (hempty | ⟨front, h⟩)
      · exact absurd hempty (hfull _)
      · exact absurd (hends _ front h) hc

theorem marked_foldl {s : List Char} (hw : w.Marked) : (s.foldl put w).Marked := by
  induction s generalizing w with
  | nil => exact hw
  | cons c s ih => exact ih (marked_put w c)

theorem marked_after {call : Call} (hw : w.Marked) : (w.after call).Marked := by
  cases call with
  | indent => exact hw
  | dedent => exact hw
  | write s => exact marked_foldl (s := s.toList) hw
  | writeLine s => exact marked_put (w.write s) '\n'
  | newline => exact marked_put w '\n'

/-- **The output says whether a line has begun**, whatever calls were made. -/
theorem marked_afterAll (hw : w.Marked) (calls : List Call) : (w.afterAll calls).Marked := by
  induction calls generalizing w with
  | nil => exact hw
  | cons call rest ih => exact ih (marked_after hw)

/-! ## The text behind its margins -/

/-- **Writing only adds margins, and how a text is cut into writes does not matter.** A new writer
gives the text that was written, with the margin of the level in force before the first character
of each line that is not empty; a line has begun exactly when the output is not empty and does not
end in a newline. Two writes in a row are one. If the level is changed after a line has begun, the
rest of that line is still appended as it is written, and only the lines after it are affected. -/
theorem only_margins_added :
    (∀ (unit : String) (calls : List Call),
      (writtenLines 0 calls).map plain = (textOf calls).toList.splitOn '\n' ∧
        (afterAll { unit } calls).output.toList =
          ['\n'].intercalate ((writtenLines 0 calls).map (withMargin unit)) ∧
        (afterAll { unit } calls).Marked) ∧
    (∀ (w : Writer) (s t : String), (w.write s).write t = w.write (s ++ t)) ∧
    ∀ (w : Writer) (calls : List Call), w.atLineStart = false →
      ∃ line lines, (textOf calls).toList.splitOn '\n' = line :: lines ∧
        ∀ v ∈ [w, w.indent, w.dedent], (v.afterAll calls).output.toList = w.output.toList ++
          ['\n'].intercalate
            (line :: (writtenLines v.level calls).tail.map (withMargin w.unit)) := by
  refine ⟨fun unit calls => ⟨?_, ?_, ?_⟩, write_append, fun w calls hw => ?_⟩
  · exact map_plain_writtenLines 0 calls
  · exact output_afterAll_new unit calls
  · have hnew : Marked { unit } := ⟨fun _ => .inl rfl, fun _ => rfl⟩
    exact marked_afterAll hnew calls
  · obtain ⟨line, lines, hcut⟩ :=
      List.exists_cons_of_ne_nil (List.splitOn_ne_nil '\n' (textOf calls).toList)
    refine ⟨line, lines, hcut, ?_⟩
    simp only [List.forall_mem_cons, List.not_mem_nil, false_implies, implies_true, and_true]
    exact ⟨output_afterAll_begun hw calls hcut,
      output_afterAll_begun (w := w.indent) hw calls hcut,
      output_afterAll_begun (w := w.dedent) hw calls hcut⟩

/-- A writer in the middle of its second line. -/
def halfway : Writer := afterAll { unit := "> " } [.dedent, .writeLine "a", .indent, .write "b"]

/-- The rest of a line, an empty line and one more, in pieces. -/
def remainder : List Call := [.write " c\n\n", .write "d", .indent, .write "e", .newline]

/-- The level is changed halfway, in both directions. -/
theorem only_margins_added_halfway : halfway.atLineStart = false ∧
    (halfway.afterAll remainder).output = "a\n> b c\n\n> de\n" ∧
    (halfway.indent.afterAll remainder).output = "a\n> b c\n\n> > de\n" ∧
    (halfway.dedent.afterAll remainder).output = "a\n> b c\n\nde\n" := by
  have hopen : halfway.atLineStart = false := by decide
  obtain ⟨line, lines, hcut, happend⟩ := only_margins_added.2.2 halfway remainder hopen
  have htext : (textOf remainder).toList.splitOn '\n' = [[' ', 'c'], [], ['d', 'e'], []] := by
    decide
  obtain ⟨rfl, -⟩ := List.cons.inj (hcut.symm.trans htext)
  refine ⟨hopen, ?_, ?_, ?_⟩
  · rw [← String.toList_inj, happend halfway (by simp)]
    decide
  · rw [← String.toList_inj, happend halfway.indent (by simp)]
    decide
  · rw [← String.toList_inj, happend halfway.dedent (by simp)]
    decide

end SparseTiling.Code.Writer
