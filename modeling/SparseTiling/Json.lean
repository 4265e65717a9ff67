import SparseTiling.Decimal.Style

/-!
# JSON values

Chain descriptions, bindings and argument lists are written as JSON. A value keeps
whole numbers apart from doubles, and the members of a record in their order.
-/

namespace SparseTiling

/-- A JSON value. -/
inductive Json
  | null
  | bool (value : Bool)
  | int (value : Int)
  | double (value : Binary64)
  | string (text : String)
  | list (items : List Json)
  | record (members : List (String × Json))

namespace Json

/-- A number without sign. -/
def nat (n : Nat) : Json := .int n

/-- A list of texts. -/
def strings (texts : List String) : Json := .list (texts.map .string)

/-- A value that may be missing. -/
def optional {α : Type} (write : α → Json) : Option α → Json
  | none => .null
  | some x => write x

end Json

end SparseTiling
