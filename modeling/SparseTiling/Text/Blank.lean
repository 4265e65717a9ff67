/-!
# Blanks and lines

Classes of characters are tables of ranges of code points. Blanks are one of them:
the white space of every script.

Code fragments supplied by a caller are cut into lines before they are
indented. Newlines at both ends are dropped, blanks at the end of a line too,
and a line of blanks alone is an empty line.

* `inRanges`: whether a character lies in one of the ranges.
* `isBlank`: the characters with the `White_Space` property.
* `trimEnd`: a text without the blanks at its end.
* `split`: the pieces between newlines.
* `fragmentLines`: the lines of a fragment.
-/

namespace SparseTiling.Text

/-! ## Blanks -/

/-- Whether a character lies in one of the ranges. -/
def inRanges (ranges : List (Nat × Nat)) (c : Char) : Bool :=
  ranges.any fun r => r.1 ≤ c.toNat && c.toNat ≤ r.2

/-- The ranges of white space. -/
def blankRanges : List (Nat × Nat) :=
  [(0x9, 0xD), (0x20, 0x20), (0x85, 0x85), (0xA0, 0xA0), (0x1680, 0x1680), (0x2000, 0x200A),
    (0x2028, 0x2029), (0x202F, 0x202F), (0x205F, 0x205F), (0x3000, 0x3000)]

/-- Whether a character is white space. -/
def isBlank (c : Char) : Bool := inRanges blankRanges c

/-- The list without the elements at its end that satisfy `p`. -/
def dropEndWhile (p : Char → Bool) (cs : List Char) : List Char :=
  (cs.reverse.dropWhile p).reverse

/-- The text without the blanks at its end. -/
def trimEnd (cs : List Char) : List Char := dropEndWhile isBlank cs

/-! ## Lines -/

/-- The pieces of a text between its newlines: always at least one. -/
def split : List Char → List (List Char)
  | [] => [[]]
  | c :: cs =>
    if c = '\n' then [] :: split cs
    else match split cs with
      | [] => [[c]]
      | piece :: pieces => (c :: piece) :: pieces

/-- The text without the newlines at either end. -/
def trimNewlines (cs : List Char) : List Char :=
  dropEndWhile (· == '\n') (cs.dropWhile (· == '\n'))

/-- The lines of a fragment: no newlines at either end, no blanks at the end of
a line. An empty fragment has no line. -/
def fragmentLines (text : String) : List String :=
  match trimNewlines text.toList with
  | [] => []
  | cs => (split cs).map fun line => String.ofList (trimEnd line)

end SparseTiling.Text
