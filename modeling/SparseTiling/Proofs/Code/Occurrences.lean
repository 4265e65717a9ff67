import SparseTiling.Proofs.Code.Scope

/-!
# What emitted code does

Calls, new objects, deletions and results, one after another. Each occurrence also says
under which conditions it stands and in the declaration of which variable.

* `Action`, `Context`, `Occurrence`: what is done, where, and for which variable.
* `Stmt.occurrences`, `Stmt.occurrencesAll`: what statements do, in their order.
* `Occurrence.function?`, `Occurrence.created?`, `Occurrence.filled?`, `Occurrence.result?`,
  `Occurrence.released`: kinds of occurrences.
-/

namespace SparseTiling.Code

/-- Something that a statement does. -/
inductive Action
  | call (callee : Expr) (args : List Expr)
  /-- A new object of a type. -/
  | create (type : String)
  | delete (operand : Expr)
  /-- The end of a function, with its result. -/
  | giveBack (value : Expr)

/-- What a statement stands in. -/
inductive Context
  | when (cond : Expr)
  | each (var : String) (bound : Expr)
  | within (function : String)

/-- An action with what it stands in, outermost first, and the variable whose declaration it
stands in, if there is one. -/
structure Occurrence where
  context : List Context
  var : Option String
  action : Action

/-! ## Statements -/

@[simp] def Expr.action? : Expr → Option Action
  | .call callee args => some (.call callee args)
  | .new type => some (.create type)
  | _ => none

/-- The actions in an expression, outer ones first. -/
abbrev Expr.actions (e : Expr) : List Action := e.collect Expr.action?

/-- What expressions in one statement do. -/
def occurrencesOf (context : List Context) (var : Option String) (es : List Expr) :
    List Occurrence :=
  (es.flatMap Expr.actions).map (Occurrence.mk context var)

mutual

/-- What a statement does, in the order of its text. -/
def Stmt.occurrences : List Context → Stmt → List Occurrence
  | context, .decl _ name init => occurrencesOf context (some name) init.toList
  | context, .construct _ name args => occurrencesOf context (some name) args
  | context, .assign target value => occurrencesOf context none [target, value]
  | context, .addAssign target value => occurrencesOf context none [target, value]
  | context, .expr e => occurrencesOf context none [e]
  | context, .ifThen cond body =>
    occurrencesOf context none [cond] ++ Stmt.occurrencesAll (context ++ [.when cond]) body
  | context, .forRange var bound body =>
    occurrencesOf context none [bound] ++ Stmt.occurrencesAll (context ++ [.each var bound]) body
  | context, .scope body => Stmt.occurrencesAll context body
  | context, .returnValue e => occurrencesOf context none [e] ++ [⟨context, none, .giveBack e⟩]
  | context, .delete e => occurrencesOf context none [e] ++ [⟨context, none, .delete e⟩]
  | context, .function head body => Stmt.occurrencesAll (context ++ [.within head.name]) body
  | _, _ => []

/-- What several statements do. -/
def Stmt.occurrencesAll : List Context → List Stmt → List Occurrence
  | _, [] => []
  | context, s :: rest => s.occurrences context ++ Stmt.occurrencesAll context rest

end

section Statements

variable {context : List Context} {type name : String} {e : Expr} {args : List Expr}
  {body : List Stmt}

theorem Stmt.occurrencesAll_eq (stmts : List Stmt) :
    occurrencesAll context stmts = stmts.flatMap (occurrences context) := by
  induction stmts with
  | nil => rfl
  | cons s rest ih => rw [occurrencesAll, ih, List.flatMap_cons]

@[simp] theorem occurrences_blank : Stmt.blank.occurrences context = [] := rfl

@[simp] theorem occurrences_comment (text : String) :
    (Stmt.comment text).occurrences context = [] := rfl

@[simp] theorem occurrences_declare : (Stmt.declare type name e).occurrences context =
    e.actions.map (Occurrence.mk context (some name)) :=
  congrArg (List.map _) (List.append_nil _)

@[simp] theorem occurrences_construct : (Stmt.construct type name args).occurrences context =
    (args.flatMap Expr.actions).map (Occurrence.mk context (some name)) := rfl

@[simp] theorem occurrences_expr :
    (Stmt.expr e).occurrences context = e.actions.map (Occurrence.mk context none) :=
  congrArg (List.map _) (List.append_nil _)

@[simp] theorem occurrences_delete : (Stmt.delete e).occurrences context =
    e.actions.map (Occurrence.mk context none) ++ [⟨context, none, .delete e⟩] :=
  congrArg (List.map _ · ++ _) (List.append_nil _)

@[simp] theorem occurrences_returnValue : (Stmt.returnValue e).occurrences context =
    e.actions.map (Occurrence.mk context none) ++ [⟨context, none, .giveBack e⟩] :=
  congrArg (List.map _ · ++ _) (List.append_nil _)

@[simp] theorem occurrences_ifThen : (Stmt.ifThen e body).occurrences context =
    e.actions.map (Occurrence.mk context none) ++
      body.flatMap (Stmt.occurrences (context ++ [.when e])) := by
  rw [← Stmt.occurrencesAll_eq]
  exact congrArg (List.map _ · ++ _) (List.append_nil _)

/-- Statements made from items, each of which does one thing. -/
theorem occurrences_map {α : Type} {stmt : α → Stmt} {occurrence : α → Occurrence} (xs : List α)
    (h : ∀ x, (stmt x).occurrences context = [occurrence x]) :
    (xs.map stmt).flatMap (Stmt.occurrences context) = xs.map occurrence := by
  rw [List.flatMap_map, List.map_eq_flatMap]
  simp only [h]

@[simp] theorem actions_callName :
    (Expr.callName name args).actions = .call (.ident name) args :: args.flatMap Expr.actions := by
  simp [Expr.callName]

@[simp] theorem actions_tableCell (table : String) (row : Nat) :
    (Expr.tableCell table row name).actions = [] := by
  simp [Expr.tableCell]

@[simp] theorem actions_nameOrNull (var : Option String) : (Expr.nameOrNull var).actions = [] := by
  cases var <;> simp [Expr.nameOrNull]

end Statements

/-! ## Kinds of occurrences -/

/-- The function of a call by name. -/
@[simp] def Occurrence.function? : Occurrence → Option String
  | ⟨_, _, .call (.ident function) _⟩ => some function
  | _ => none

/-- The variable of a new object. -/
@[simp] def Occurrence.created? : Occurrence → Option String
  | ⟨_, var, .create _⟩ => var
  | _ => none

/-- The list that an item is inserted into. -/
@[simp] def Occurrence.filled? : Occurrence → Option String
  | ⟨_, _, .call (.arrow (.ident list) "insert") _⟩ => some list
  | _ => none

/-- The value that a function returns. -/
@[simp] def Occurrence.result? : Occurrence → Option Expr
  | ⟨_, _, .giveBack value⟩ => some value
  | _ => none

/-- Functions that release what they are given are named for it. -/
def isRelease (function : String) : Bool := "_free".toList.isSuffixOf function.toList

/-- The variables that an occurrence releases. -/
@[simp] def Occurrence.released : Occurrence → List String
  | ⟨_, _, .delete operand⟩ => operand.idents
  | ⟨_, _, .call (.ident function) args⟩ =>
    if isRelease function then args.flatMap Expr.idents else []
  | _ => []

/-- The variables that a statement releases. -/
def Stmt.released (s : Stmt) : List String := (s.occurrences []).flatMap Occurrence.released

end SparseTiling.Code
