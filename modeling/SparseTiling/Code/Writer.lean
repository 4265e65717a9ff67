/-!
# Indenting writer

Text is written piece by piece; the first character of every line that is not
empty is preceded by the indentation in force at that moment.

* `Writer.write`, `Writer.writeLine`, `Writer.newline`: appending text.
* `Writer.indent`, `Writer.dedent`: changing the level for the lines to come.
* `Writer.Call`, `Writer.after`: the calls as data, and their effect.
-/

namespace SparseTiling.Code

/-- The text so far and the state of the current line. -/
structure Writer where
  output : String := ""
  level : Nat := 0
  /-- The indentation of one level. -/
  unit : String := "  "
  atLineStart : Bool := true
  deriving DecidableEq

namespace Writer

/-- The indentation of the current level. -/
def margin (w : Writer) : String := String.join (List.replicate w.level w.unit)

/-- The bytes that the indentation of the current level takes. -/
def indentWidth (w : Writer) : Nat := w.level * w.unit.utf8ByteSize

def indent (w : Writer) : Writer := { w with level := w.level + 1 }

def dedent (w : Writer) : Writer := { w with level := w.level - 1 }

/-- Append a character, after the margin if it opens a line. -/
def put (w : Writer) (c : Char) : Writer :=
  if c = '\n' then { w with output := w.output.push c, atLineStart := true }
  else if w.atLineStart then
    { w with output := (w.output ++ w.margin).push c, atLineStart := false }
  else { w with output := w.output.push c }

/-- Append a text. -/
def write (w : Writer) (s : String) : Writer := s.toList.foldl put w

/-- End the line. -/
def newline (w : Writer) : Writer := w.put '\n'

/-- Append a text and end the line. -/
def writeLine (w : Writer) (s : String) : Writer := (w.write s).newline

/-- Calls on a writer. -/
inductive Call
  | indent
  | dedent
  | write (s : String)
  | writeLine (s : String)
  | newline

/-- The writer after a call. -/
def after (w : Writer) : Call → Writer
  | .indent => w.indent
  | .dedent => w.dedent
  | .write s => w.write s
  | .writeLine s => w.writeLine s
  | .newline => w.newline

/-- **How a text is cut into writes does not matter.** -/
theorem write_append (w : Writer) (s t : String) : (w.write s).write t = w.write (s ++ t) := by
  simp [write, String.toList_append, List.foldl_append]

end Writer

end SparseTiling.Code
