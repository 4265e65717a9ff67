/-!
# Control characters

A text that ends up on a terminal can move its cursor or change its colors. Control
characters do so, and whole sequences that an escape character starts. Without them
the text is only a text.

* `Sequence`: where in a sequence a text stands.
* `Sequence.next`: one character further.
* `withoutControls`: a text without control characters and sequences.
-/

namespace SparseTiling.Text

/-- Where in a control sequence a text stands. -/
inductive Sequence
  /-- In none. -/
  | outside
  /-- After an escape character. -/
  | escape
  /-- After an escape character and marks that leave the last one open. -/
  | escapeMarks
  /-- In a sequence with parameters, up to the letter that ends it. -/
  | parameters
  /-- At the start of a string for a device. -/
  | deviceStart
  /-- In the parameters of a string for a device. -/
  | deviceParameters
  /-- In the marks after them. -/
  | deviceMarks
  /-- In a command for the operating system, up to a bell. -/
  | command
  /-- In any other string. -/
  | string
  deriving DecidableEq

/-- Whether a control character is white space, which stays. -/
def isLayout (c : Char) : Bool := c = '\t' || c = '\n' || c = '\x0c' || c = '\r'

/-- Whether a character is one of a text that no control sequence holds. -/
def isPlain (c : Char) : Bool := (0x20 ≤ c.toNat && c.toNat ≠ 0x7F) || isLayout c

/-- Whether the byte that ends a string is one of those that spell a character. -/
def spellsEnd (c : Char) : Bool := (String.singleton c).toUTF8.toList.contains 0x9C

namespace Sequence

/-- Where a text stands after a character that has a code of 0x20 or more. -/
def afterGraphic (q : Sequence) (c : Char) : Sequence :=
  let n := c.toNat
  if 0x7F ≤ n then
    match q with
    | .string => if spellsEnd c then .outside else .string
    | q => q
  else match q with
    | .outside => .outside
    | .escape =>
      if n < 0x30 then .escapeMarks
      else match c with
        | '[' => .parameters
        | ']' => .command
        | 'P' => .deviceStart
        | 'X' | '^' | '_' => .string
        | _ => .outside
    | .escapeMarks => if n < 0x30 then .escapeMarks else .outside
    | .parameters => if n < 0x40 then .parameters else .outside
    | .deviceStart =>
      if n < 0x30 then .deviceMarks else if n < 0x40 then .deviceParameters else .string
    | .deviceParameters =>
      if n < 0x30 then .deviceMarks else if n < 0x3C then .deviceParameters else .string
    | .deviceMarks => if n < 0x30 then .deviceMarks else .string
    | .command => .command
    | .string => .string

/-- Where a text stands after a character. The escape character starts a new sequence
anywhere, and two others end any. -/
def next (q : Sequence) (c : Char) : Sequence :=
  if c = '\x1b' then .escape
  else if c = '\x18' ∨ c = '\x1a' then .outside
  else if c = '\x07' ∧ q = .command then .outside
  else if c.toNat < 0x20 then q
  else q.afterGraphic c

/-- Whether a character stays that comes in a sequence. White space stays unless it is
in a string. -/
def keeps (q : Sequence) (c : Char) : Bool :=
  match q with
  | .outside => isPlain c
  | .escape | .escapeMarks | .parameters => isLayout c
  | _ => false

end Sequence

/-- The plain characters of a text. After white space inside a sequence, plain characters
stay up to the next control character, where the sequence goes on; a character beyond
ASCII ends it. -/
def plainChars (q : Sequence) (inRun : Bool) : List Char → List Char
  | [] => []
  | c :: cs =>
    if inRun && isPlain c then
      c :: plainChars (if c.toNat < 0x80 then q else .outside) true cs
    else if q.keeps c then c :: plainChars (q.next c) true cs
    else plainChars (q.next c) false cs

/-- **A text without control characters and sequences,** white space apart. -/
def withoutControls (text : String) : String :=
  String.ofList (plainChars .outside false text.toList)

end SparseTiling.Text
