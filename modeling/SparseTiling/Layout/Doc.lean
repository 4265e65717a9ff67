/-!
# Documents

A document is a text with places where a line may be broken. What is printed of
it depends on the width of the page and is settled in `SparseTiling.Layout.Fill`.

The constructors leave no trace of empty documents: an empty text is the empty
document, and joining, indenting or grouping it changes nothing. A broken line
takes its indentation from what follows it, so an empty document must not stand
there.

* `Doc.ofText`, `Doc.cat` (also `++`), `Doc.indent`, `Doc.grouped`: building documents.
* `Doc.softBreak`: a place to break a line, on its own.
* `Doc.bracketed`: items between brackets, separated by commas.
-/

namespace SparseTiling

/-- Text with places where a line may be broken. -/
inductive Doc
  | nil
  | text (s : String)
  /-- A new line, or a space where the text is kept on one line. -/
  | line
  | append (left right : Doc)
  /-- Broken lines inside are indented by `amount` more columns. -/
  | nest (amount : Nat) (body : Doc)
  /-- Kept on one line if it fits there. -/
  | group (body : Doc)
  deriving DecidableEq

namespace Doc

/-- The document of a text. -/
def ofText (s : String) : Doc := if s = "" then .nil else .text s

/-- One document after another. -/
def cat : Doc → Doc → Doc
  | .nil, d => d
  | d, .nil => d
  | d, e => .append d e

instance : Append Doc := ⟨cat⟩

/-- A document whose broken lines are indented by `amount` more columns. -/
def indent (amount : Nat) : Doc → Doc
  | .nil => .nil
  | d => .nest amount d

/-- A document that is kept on one line if it fits there. -/
def grouped : Doc → Doc
  | .nil => .nil
  | d => .group d

/-- A place to break a line that is decided on its own. -/
def softBreak : Doc := .group .line

/-- The extra indentation of broken lists. -/
def continuation : Nat := 4

/-- Items one after another, with a comma and a place to break a line between. -/
def commaSeparated : List Doc → Doc
  | [] => .nil
  | first :: rest => rest.foldl (fun d item => d ++ (ofText "," ++ softBreak) ++ item) first

/-- Items between brackets, separated by commas, broken only where the next one
does not fit. -/
def bracketed (opening : String) (items : List Doc) (closing : String) : Doc :=
  (ofText opening ++ (commaSeparated items).indent continuation ++ ofText closing).grouped

/-- The number of constructors, which bounds the work of a layout. -/
def size : Doc → Nat
  | .nil | .text _ | .line => 1
  | .append l r => l.size + r.size + 1
  | .nest _ d => d.size + 1
  | .group d => d.size + 1

end Doc

end SparseTiling
