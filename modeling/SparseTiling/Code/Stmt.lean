import SparseTiling.Code.Expr

/-!
# Statements

The statements and top-level items of emitted code.

* `Stmt`: the tree.
* `Stmt.preorder`: every statement of a list, outer ones before inner ones.
-/

namespace SparseTiling.Code

/-- A function parameter; an array has an extent. -/
structure Param where
  type : String
  name : String
  extent : Option Nat := none
  deriving DecidableEq

/-- An array parameter; an array without elements decays to a pointer. -/
def Param.array (type name : String) (extent : Nat) : Param :=
  if extent = 0 then { type := type ++ "*", name } else { type, name, extent := some extent }

/-- The head of a function; an exported one has C linkage. -/
structure Signature where
  result : String
  name : String
  params : List Param
  exported : Bool := false
  deriving DecidableEq

/-- A statement or top-level item. -/
inductive Stmt
  | includeSystem (header : String)
  | includeLocal (header : String)
  | comment (text : String)
  | blank
  /-- A variable, with or without a value. -/
  | decl (type name : String) (init : Option Expr)
  /-- A variable built from constructor arguments. -/
  | construct (type name : String) (args : List Expr)
  | assign (target value : Expr)
  | addAssign (target value : Expr)
  | expr (e : Expr)
  | ifThen (cond : Expr) (body : List Stmt)
  /-- The variable runs from zero up to, not including, the bound. -/
  | forRange (var : String) (bound : Expr) (body : List Stmt)
  | pragma (text : String)
  | scope (body : List Stmt)
  | continueLoop
  | returnValue (e : Expr)
  | delete (e : Expr)
  /-- Code supplied by the caller, kept line by line. -/
  | fragment (text : String)
  | structType (name : String) (fields : List (String × String))
  | prototype (head : Signature)
  | function (head : Signature) (body : List Stmt)

namespace Stmt

/-- A variable with a value. -/
def declare (type name : String) (init : Expr) : Stmt := .decl type name (some init)

/-- A variable without a value. -/
def declareBare (type name : String) : Stmt := .decl type name none

mutual

/-- A statement and all statements inside it, outer ones first. -/
def subtree : Stmt → List Stmt
  | s@(.ifThen _ body) => s :: preorder body
  | s@(.forRange _ _ body) => s :: preorder body
  | s@(.scope body) => s :: preorder body
  | s@(.function _ body) => s :: preorder body
  | s => [s]

/-- All statements of a list, outer ones before inner ones. -/
def preorder : List Stmt → List Stmt
  | [] => []
  | s :: rest => subtree s ++ preorder rest

end

end Stmt

end SparseTiling.Code
