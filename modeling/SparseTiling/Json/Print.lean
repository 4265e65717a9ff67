import SparseTiling.Json
import SparseTiling.Json.Quoted

/-!
# Writing JSON

Values are laid out with one item or member on a line, two blanks further in than
the brackets around it. Empty lists and records stay on their line.

* `Json.write`: the characters of a value at a nesting level.
* `Json.render`: the text of a value.
-/

namespace SparseTiling.Json

/-- Doubles are written positionally while the leading digit is between the fifth
place after the point and the fifteenth power of ten; exponents carry their sign. -/
def doubleStyle : Binary64.Style where
  least := -5
  greatest := 15
  plus := true
  tie := .even

/-- A new line at a nesting level. -/
def newLine (level : Nat) : List Char := '\n' :: List.replicate (2 * level) ' '

/-- The characters of a double; JSON has none for those that are not finite. -/
def writeDouble (x : Binary64) : List Char :=
  if x.isFinite then (doubleStyle.write x).toList else "null".toList

mutual

/-- The characters of a value at a nesting level. -/
def write (level : Nat) : Json → List Char
  | .null => "null".toList
  | .bool value => if value then "true".toList else "false".toList
  | .int value => (toString value).toList
  | .double value => writeDouble value
  | .string text => quote text
  | .list [] => ['[', ']']
  | .list (item :: items) =>
    '[' :: newLine (level + 1) ++ write (level + 1) item ++ writeItems (level + 1) items ++
      newLine level ++ [']']
  | .record [] => ['\x7b', '\x7d']
  | .record ((key, value) :: members) =>
    '\x7b' :: newLine (level + 1) ++ quote key ++ ':' :: ' ' :: write (level + 1) value ++
      writeMembers (level + 1) members ++ newLine level ++ ['\x7d']

/-- The characters of the further items of a list. -/
def writeItems (level : Nat) : List Json → List Char
  | [] => []
  | item :: items => ',' :: newLine level ++ write level item ++ writeItems level items

/-- The characters of the further members of a record. -/
def writeMembers (level : Nat) : List (String × Json) → List Char
  | [] => []
  | (key, value) :: members =>
    ',' :: newLine level ++ quote key ++ ':' :: ' ' :: write level value ++
      writeMembers level members

end

/-- The text of a value. -/
def render (value : Json) : String := String.ofList (write 0 value)

end SparseTiling.Json
