import SparseTiling.Code.Stmt
import SparseTiling.Code.Writer
import SparseTiling.Decimal.Style
import SparseTiling.Layout.Fill
import SparseTiling.Text.Blank

/-!
# Printing code

Expressions become documents, so that long argument lists are broken where the
next item does not fit; statements are written line by line.

A string literal stands between double quotes. Quotes, backslashes, line breaks and
tabs have escapes of their own; other control characters are written as octal
escapes of three digits, which cannot swallow a digit that follows.

* `escape`, `quote`: the spelling of one character, and the literal of a text.
* `Expr.doc`, `Signature.doc`: documents.
* `Expr.render`: an expression on its own.
* `Stmt.print`, `Stmt.printAll`: statements, on an indenting writer.
* `render`: the text of a list of statements.
-/

namespace SparseTiling.Code

/-! ## String literals -/

/-- The digit for a number below eight. -/
def octalDigit (n : Nat) : Char := Char.ofNat ('0'.toNat + n % 8)

/-- The spelling of a character inside a literal. -/
def escape (c : Char) : List Char :=
  if c = '"' then ['\\', '"']
  else if c = '\\' then ['\\', '\\']
  else if c = '\n' then ['\\', 'n']
  else if c = '\t' then ['\\', 't']
  else if c = '\r' then ['\\', 'r']
  else if c.toNat < 0x20 ∨ c.toNat = 0x7F then
    ['\\', octalDigit (c.toNat / 64), octalDigit (c.toNat / 8), octalDigit c.toNat]
  else [c]

/-- The characters of the literal of a text. -/
def quoteChars (cs : List Char) : List Char := '"' :: cs.flatMap escape ++ ['"']

/-- The literal of a text. -/
def quote (text : String) : String := String.ofList (quoteChars text.toList)

/-! ## Expressions -/

/-- Doubles in code: positional from `0.0001` up to below `1e16`, a tie between
two shortest spellings goes up. -/
def doubleStyle : Binary64.Style where
  least := -4
  greatest := 15
  plus := false
  tie := .up

/-- The width of a page. -/
def pageWidth : Nat := 100

/-- Deeply indented code is not squeezed below this width. -/
def leastWidth : Nat := 40

/-- A document between parentheses. -/
def parenthesized (d : Doc) : Doc := Doc.ofText "(" ++ d ++ Doc.ofText ")"

/-- An operand that needs parentheses: an operation on the right, or one with
another operator. -/
def needsParens (parent : BinaryOp) (right : Bool) : Expr → Bool
  | .binary op _ _ => right || op != parent
  | _ => false

mutual

/-- The document of an expression. -/
def Expr.doc : Expr → Doc
  | .ident name => Doc.ofText name
  | .int value => Doc.ofText (toString value)
  | .float value => Doc.ofText (doubleStyle.write value)
  | .bool value => Doc.ofText (if value then "true" else "false")
  | .str text => Doc.ofText (quote text)
  | .null => Doc.ofText "NULL"
  | .call callee args => callee.doc ++ Doc.bracketed "(" (Expr.docs args) ")"
  | .field base name => base.doc ++ Doc.ofText "." ++ Doc.ofText name
  | .arrow base name => base.doc ++ Doc.ofText "->" ++ Doc.ofText name
  | .index base position => base.doc ++ Doc.ofText "[" ++ position.doc ++ Doc.ofText "]"
  | .addressOf operand => Doc.ofText "&" ++ operand.doc
  | .not operand => Doc.ofText "!" ++ operand.doc
  | .cast type operand => Doc.ofText ("(" ++ type ++ ")") ++ operand.doc
  | .binary op left right =>
    (if needsParens op false left then parenthesized left.doc else left.doc) ++
      Doc.ofText (" " ++ op.symbol ++ " ") ++
      (if needsParens op true right then parenthesized right.doc else right.doc)
  | .new type => Doc.ofText ("new " ++ type ++ "()")
  | .list items => Doc.bracketed "\x7b" (Expr.docs items) "\x7d"

/-- The documents of several expressions. -/
def Expr.docs : List Expr → List Doc
  | [] => []
  | e :: rest => e.doc :: Expr.docs rest

end

/-- The text of an expression on a page of the given width. -/
def Expr.renderAt (width : Nat) (e : Expr) : String := e.doc.render width

/-- The text of an expression on a page of its own. -/
def Expr.render (e : Expr) : String := e.renderAt pageWidth

/-- The text of a parameter. -/
def Param.text (p : Param) : String :=
  match p.extent with
  | some n => p.type ++ " " ++ p.name ++ "[" ++ toString n ++ "]"
  | none => p.type ++ " " ++ p.name

/-- The document of the head of a function. -/
def Signature.doc (s : Signature) : Doc :=
  let linkage := if s.exported then "extern \"C\" " else ""
  (Doc.ofText (linkage ++ s.result ++ " " ++ s.name) ++ Doc.ofText "(" ++
    (Doc.commaSeparated (s.params.map fun p => Doc.ofText p.text)).indent Doc.continuation ++
    Doc.ofText ")").grouped

/-! ## Statements -/

namespace Writer

/-- Write a document on lines of its own, in the width that the indentation
leaves. -/
def writeDoc (w : Writer) (d : Doc) : Writer :=
  w.writeLine (d.render (max (pageWidth - w.indentWidth) leastWidth))

/-- Write a document as a statement. -/
def writeStmt (w : Writer) (d : Doc) : Writer := w.writeDoc (d ++ Doc.ofText ";")

/-- Write a document that opens a block. -/
def openBlock (w : Writer) (head : Doc) : Writer := (w.writeDoc (head ++ Doc.ofText " \x7b")).indent

/-- Close the block. -/
def closeBlock (w : Writer) : Writer := w.dedent.writeLine "\x7d"

end Writer

namespace Stmt

/-- The head of a counting loop. -/
def forHead (var : String) (bound : Expr) : Doc :=
  Doc.ofText ("for (int " ++ var ++ " = 0; " ++ var ++ " < ") ++ bound.doc ++
    Doc.ofText ("; " ++ var ++ "++)")

mutual

/-- Write a statement. -/
def print : Stmt → Writer → Writer
  | .includeSystem header, w => w.writeLine ("#include <" ++ header ++ ">")
  | .includeLocal header, w => w.writeLine ("#include \"" ++ header ++ "\"")
  | .comment text, w => w.writeLine ("// " ++ text)
  | .blank, w => w.newline
  | .decl type name none, w => w.writeStmt (Doc.ofText (type ++ " " ++ name))
  | .decl type name (some init), w =>
    w.writeStmt (Doc.ofText (type ++ " " ++ name) ++ Doc.ofText " = " ++ init.doc)
  | .construct type name args, w =>
    w.writeStmt (Doc.ofText (type ++ " " ++ name ++ " ") ++ Doc.bracketed "(" (Expr.docs args) ")")
  | .assign target value, w => w.writeStmt (target.doc ++ Doc.ofText " = " ++ value.doc)
  | .addAssign target value, w => w.writeStmt (target.doc ++ Doc.ofText " += " ++ value.doc)
  | .expr e, w => w.writeStmt e.doc
  | .ifThen cond body, w =>
    (printAll body
      (w.openBlock (Doc.ofText "if (" ++ cond.doc ++ Doc.ofText ")"))).closeBlock
  | .forRange var bound body, w => (printAll body (w.openBlock (forHead var bound))).closeBlock
  | .pragma text, w => w.writeLine ("#pragma " ++ text)
  | .scope body, w => (printAll body (w.writeLine "\x7b").indent).closeBlock
  | .continueLoop, w => w.writeLine "continue;"
  | .returnValue e, w => w.writeStmt (Doc.ofText "return " ++ e.doc)
  | .delete e, w => w.writeStmt (Doc.ofText "delete " ++ e.doc)
  | .fragment text, w => (Text.fragmentLines text).foldl Writer.writeLine w
  | .structType name fields, w =>
    let inner := (w.writeLine "typedef struct \x7b").indent
    let listed := fields.foldl (fun v f => v.writeLine (f.1 ++ " " ++ f.2 ++ ";")) inner
    listed.dedent.writeLine ("\x7d " ++ name ++ ";")
  | .prototype head, w => w.writeStmt head.doc
  | .function head body, w => (printAll body (w.openBlock head.doc)).closeBlock

/-- Write statements one after another. -/
def printAll : List Stmt → Writer → Writer
  | [], w => w
  | s :: rest, w => printAll rest (print s w)

end

end Stmt

/-- The text of a list of statements. -/
def render (stmts : List Stmt) : String := (Stmt.printAll stmts {}).output

end SparseTiling.Code
