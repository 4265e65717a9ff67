import SparseTiling.Decimal.Binary64

/-!
# Expressions

The part of C++ expressions that inspectors and executors need.

* `Expr`: the tree.
* `Expr.callName`, `Expr.tableCell`, `Expr.stream`, `Expr.nameOrNull`: the shapes
  that emitted code is made of.
-/

namespace SparseTiling.Code

/-- The binary operators in use. -/
inductive BinaryOp
  | sub
  | eq
  /-- Stream output. -/
  | shl
  deriving DecidableEq

def BinaryOp.symbol : BinaryOp → String
  | .sub => "-"
  | .eq => "=="
  | .shl => "<<"

/-- An expression. -/
inductive Expr
  | ident (name : String)
  | int (value : Int)
  | float (value : Binary64)
  | bool (value : Bool)
  /-- A string literal, by the text it stands for. -/
  | str (text : String)
  | null
  | call (callee : Expr) (args : List Expr)
  | field (base : Expr) (name : String)
  | arrow (base : Expr) (name : String)
  | index (base position : Expr)
  | addressOf (operand : Expr)
  | not (operand : Expr)
  | cast (type : String) (operand : Expr)
  | binary (op : BinaryOp) (left right : Expr)
  /-- A new object of a type, built without arguments. -/
  | new (type : String)
  /-- A braced initialiser. -/
  | list (items : List Expr)

namespace Expr

/-- The call of a function by its name. -/
def callName (name : String) (args : List Expr) : Expr := .call (.ident name) args

/-- The field of a row of a table. -/
def tableCell (table : String) (row : Nat) (name : String) : Expr :=
  .field (.index (.ident table) (.int row)) name

/-- A variable, or the null pointer where there is none. -/
def nameOrNull : Option String → Expr
  | some name => .ident name
  | none => .null

def equals (left right : Expr) : Expr := .binary .eq left right

def minus (left right : Expr) : Expr := .binary .sub left right

/-- The method call `base.name(args)`. -/
def method (base : Expr) (name : String) (args : List Expr) : Expr :=
  .call (.field base name) args

/-- Parts written to a stream one after another, from the left. -/
def stream : List Expr → Expr
  | [] => .ident ""
  | first :: rest => rest.foldl (.binary .shl) first

end Expr

end SparseTiling.Code
