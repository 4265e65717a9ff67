import SparseTiling.Layout.Doc
import SparseTiling.Text.Width

/-!
# Layout of documents

A document is laid out from left to right. Pending parts wait on a stack, each
with its indentation and with the mode in which its lines are printed. A group
that is met in broken mode is printed flat if it fits on the line together with
what follows it up to the next possible break.

A broken line is indented like the part that follows it on the stack.

* `fits`: the look-ahead.
* `place`: the layout, as a list of pieces.
* `Doc.render`: the text of a document at a width.
-/

namespace SparseTiling.Layout

/-- Whether lines are kept as spaces or broken. -/
inductive Mode
  | flat
  | broken
  deriving DecidableEq

/-- A pending part of a document. -/
structure Part where
  indent : Nat
  mode : Mode
  doc : Doc

/-- What a layout consists of. -/
inductive Piece
  | text (s : String)
  | space
  | newline (indent : Nat)
  deriving DecidableEq

/-- The work that is left in a list of pending documents. -/
def pending : List (Mode × Doc) → Nat
  | [] => 0
  | (_, d) :: work => d.size + pending work

/-- The work that is left on a stack. -/
def pendingParts : List Part → Nat
  | [] => 0
  | p :: stack => p.doc.size + pendingParts stack

/-- Whether the pending documents fit on the line from column `col` on, up to the
first line that may be broken. -/
def fits (width col : Nat) : List (Mode × Doc) → Bool
  | [] => true
  | (_, .nil) :: work => fits width col work
  | (_, .text s) :: work =>
    let next := col + Text.width s
    if width < next then false else fits width next work
  | (.flat, .line) :: work => if width < col + 1 then false else fits width (col + 1) work
  | (.broken, .line) :: _ => true
  | (m, .append l r) :: work => fits width col ((m, l) :: (m, r) :: work)
  | (m, .nest _ d) :: work => fits width col ((m, d) :: work)
  | (m, .group d) :: work => fits width col ((m, d) :: work)
termination_by work => pending work
decreasing_by all_goals simp [pending, Doc.size]; try omega

/-- Whether a group fits: its body flat, what follows on the stack broken. -/
def groupFits (width col : Nat) (body : Doc) (stack : List Part) : Bool :=
  fits width col ((.flat, body) :: stack.map fun p => (.broken, p.doc))

/-- The indentation of a broken line: that of the next part, or its own where
nothing follows. -/
def nextIndent (own : Nat) : List Part → Nat
  | [] => own
  | p :: _ => p.indent

/-- The layout of the parts on the stack, from column `col` on. -/
def place (width col : Nat) : List Part → List Piece
  | [] => []
  | ⟨_, _, .nil⟩ :: stack => place width col stack
  | ⟨_, _, .text s⟩ :: stack => .text s :: place width (col + Text.width s) stack
  | ⟨_, .flat, .line⟩ :: stack => .space :: place width (col + 1) stack
  | ⟨i, .broken, .line⟩ :: stack =>
    .newline (nextIndent i stack) :: place width (nextIndent i stack) stack
  | ⟨i, m, .append l r⟩ :: stack => place width col (⟨i, m, l⟩ :: ⟨i, m, r⟩ :: stack)
  | ⟨i, m, .nest n d⟩ :: stack => place width col (⟨i + n, m, d⟩ :: stack)
  | ⟨i, .flat, .group d⟩ :: stack => place width col (⟨i, .flat, d⟩ :: stack)
  | ⟨i, .broken, .group d⟩ :: stack =>
    place width col (⟨i, if groupFits width col d stack then .flat else .broken, d⟩ :: stack)
termination_by stack => pendingParts stack
decreasing_by all_goals simp [pendingParts, Doc.size]; try omega

/-- The text of a piece. -/
def Piece.toString : Piece → String
  | .text s => s
  | .space => " "
  | .newline n => String.ofList ('\n' :: List.replicate n ' ')

end SparseTiling.Layout

namespace SparseTiling.Doc

/-- The layout of a document on a page of the given width. -/
def layout (width : Nat) (d : Doc) : List Layout.Piece :=
  Layout.place width 0 [⟨0, .broken, d⟩]

/-- The text of a document on a page of the given width. -/
def render (width : Nat) (d : Doc) : String :=
  String.join ((d.layout width).map Layout.Piece.toString)

end SparseTiling.Doc
