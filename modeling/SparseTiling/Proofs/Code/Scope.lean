import SparseTiling.Proofs.Code.Emitted

/-!
# Names in emitted code

Which identifiers stand in emitted code, which variables it declares, and whether a use
comes after a declaration that is in force.

* `Expr.collect`: what stands in an expression, by a rule for single expressions.
* `Expr.idents`, `Expr.calls`, `Stmt.idents`, `Stmt.calls`: identifiers and calls.
* `Successive`, `declarations`: statements in a row, each with what is declared before it.
* `declaredNames`: the names that statements declare, inner statements included.
* `Stmt.Scoped`, `Stmt.ScopedAll`: blocks, in which a variable ends with its block.
-/

namespace SparseTiling.Code

/-! ## What stands in an expression -/

section Collect

variable {α : Type} (g : Expr → Option α)

/-- What a rule finds in an expression and its parts. -/
def Expr.collect (e : Expr) : List α := e.parts.filterMap g

variable {e left right : Expr} {name : String} {args : List Expr}

/-- The one place that looks at the parts; the rules below are its cases. -/
theorem Expr.collect_eq (e : Expr) (inner : List Expr) (h : e.parts = e :: inner) :
    e.collect g = (g e).toList ++ inner.filterMap g := by
  rw [collect, h, List.filterMap_cons]
  cases g e <;> rfl

theorem Expr.filterMap_partsAll (items : List Expr) :
    (Expr.partsAll items).filterMap g = items.flatMap (Expr.collect g) := by
  rw [partsAll_eq, List.filterMap_flatMap]
  rfl

theorem Expr.collect_atom (h : e.parts = [e]) : e.collect g = (g e).toList := by
  simpa using collect_eq g e [] h

@[simp] theorem collect_ident : (Expr.ident name).collect g = (g (.ident name)).toList :=
  Expr.collect_atom g rfl

@[simp] theorem collect_int (n : Int) : (Expr.int n).collect g = (g (.int n)).toList :=
  Expr.collect_atom g rfl

@[simp] theorem collect_float (x : Binary64) : (Expr.float x).collect g = (g (.float x)).toList :=
  Expr.collect_atom g rfl

@[simp] theorem collect_bool (b : Bool) : (Expr.bool b).collect g = (g (.bool b)).toList :=
  Expr.collect_atom g rfl

@[simp] theorem collect_str : (Expr.str name).collect g = (g (.str name)).toList :=
  Expr.collect_atom g rfl

@[simp] theorem collect_null : Expr.null.collect g = (g .null).toList :=
  Expr.collect_atom g rfl

@[simp] theorem collect_new : (Expr.new name).collect g = (g (.new name)).toList :=
  Expr.collect_atom g rfl

@[simp] theorem collect_call : (Expr.call e args).collect g =
    (g (.call e args)).toList ++ (e.collect g ++ args.flatMap (Expr.collect g)) := by
  rw [Expr.collect_eq g _ _ rfl, List.filterMap_append, Expr.filterMap_partsAll]
  rfl

@[simp] theorem collect_list : (Expr.list args).collect g =
    (g (.list args)).toList ++ args.flatMap (Expr.collect g) := by
  rw [Expr.collect_eq g _ _ rfl, Expr.filterMap_partsAll]

@[simp] theorem collect_field :
    (Expr.field e name).collect g = (g (.field e name)).toList ++ e.collect g :=
  Expr.collect_eq g _ _ rfl

@[simp] theorem collect_arrow :
    (Expr.arrow e name).collect g = (g (.arrow e name)).toList ++ e.collect g :=
  Expr.collect_eq g _ _ rfl

@[simp] theorem collect_addressOf :
    (Expr.addressOf e).collect g = (g (.addressOf e)).toList ++ e.collect g :=
  Expr.collect_eq g _ _ rfl

@[simp] theorem collect_not : (Expr.not e).collect g = (g (.not e)).toList ++ e.collect g :=
  Expr.collect_eq g _ _ rfl

@[simp] theorem collect_cast :
    (Expr.cast name e).collect g = (g (.cast name e)).toList ++ e.collect g :=
  Expr.collect_eq g _ _ rfl

@[simp] theorem collect_index : (Expr.index left right).collect g =
    (g (.index left right)).toList ++ (left.collect g ++ right.collect g) := by
  rw [Expr.collect_eq g _ _ rfl, List.filterMap_append]
  rfl

@[simp] theorem collect_binary (op : BinaryOp) : (Expr.binary op left right).collect g =
    (g (.binary op left right)).toList ++ (left.collect g ++ right.collect g) := by
  rw [Expr.collect_eq g _ _ rfl, List.filterMap_append]
  rfl

end Collect

/-- The name of an identifier. -/
@[simp] def Expr.ident? : Expr → Option String
  | .ident name => some name
  | _ => none

/-- The function and the arguments of a call by name. -/
@[simp] def Expr.call? : Expr → Option (String × List Expr)
  | .call (.ident function) args => some (function, args)
  | _ => none

/-- The identifiers in an expression. -/
abbrev Expr.idents (e : Expr) : List String := e.collect Expr.ident?

/-- The calls in an expression. -/
abbrev Expr.calls (e : Expr) : List (String × List Expr) := e.collect Expr.call?

/-- What a rule finds in a statement and the statements inside it. -/
def Stmt.collect {α : Type} (g : Expr → Option α) (s : Stmt) : List α :=
  s.exprs.flatMap (Expr.collect g)

/-- The identifiers in a statement and the statements inside it. -/
abbrev Stmt.idents (s : Stmt) : List String := s.collect Expr.ident?

/-- The calls in a statement and the statements inside it. -/
abbrev Stmt.calls (s : Stmt) : List (String × List Expr) := s.collect Expr.call?

section Statements

variable {α : Type} {g : Expr → Option α} {type name : String} {e : Expr} {args : List Expr}
  {body : List Stmt}

/-- The one place that looks into a statement; the rules below are its cases. -/
theorem Stmt.collect_eq {s : Stmt} (es : List Expr) (h : s.exprs = es) :
    s.collect g = es.flatMap (Expr.collect g) := by
  rw [collect, h]

@[simp] theorem collect_comment (text : String) : (Stmt.comment text).collect g = [] :=
  Stmt.collect_eq [] rfl

@[simp] theorem collect_blank : Stmt.blank.collect g = [] := Stmt.collect_eq [] rfl

@[simp] theorem collect_declare : (Stmt.declare type name e).collect g = e.collect g :=
  (Stmt.collect_eq [e] rfl).trans (by simp)

@[simp] theorem collect_construct :
    (Stmt.construct type name args).collect g = args.flatMap (Expr.collect g) :=
  Stmt.collect_eq args rfl

@[simp] theorem collect_expr : (Stmt.expr e).collect g = e.collect g :=
  (Stmt.collect_eq [e] rfl).trans (by simp)

@[simp] theorem collect_delete : (Stmt.delete e).collect g = e.collect g :=
  (Stmt.collect_eq [e] rfl).trans (by simp)

@[simp] theorem collect_returnValue : (Stmt.returnValue e).collect g = e.collect g :=
  (Stmt.collect_eq [e] rfl).trans (by simp)

@[simp] theorem collect_ifThen :
    (Stmt.ifThen e body).collect g = e.collect g ++ body.flatMap (Stmt.collect g) := by
  rw [Stmt.collect_eq (e :: Stmt.exprsAll body) rfl, List.flatMap_cons, Stmt.exprsAll_eq,
    List.flatMap_assoc]
  rfl

end Statements

section Shapes

variable {e : Expr} {name table : String} {args : List Expr} {row : Nat}

@[simp] theorem idents_callName :
    (Expr.callName name args).idents = name :: args.flatMap Expr.idents := by
  simp [Expr.callName]

@[simp] theorem calls_callName :
    (Expr.callName name args).calls = (name, args) :: args.flatMap Expr.calls := by
  simp [Expr.callName]

@[simp] theorem idents_method :
    (Expr.method e name args).idents = e.idents ++ args.flatMap Expr.idents := by
  simp [Expr.method]

@[simp] theorem idents_tableCell : (Expr.tableCell table row name).idents = [table] := by
  simp [Expr.tableCell]

@[simp] theorem calls_tableCell : (Expr.tableCell table row name).calls = [] := by
  simp [Expr.tableCell]

@[simp] theorem idents_nameOrNull (var : Option String) :
    (Expr.nameOrNull var).idents = var.toList := by
  cases var <;> simp [Expr.nameOrNull]

@[simp] theorem calls_nameOrNull (var : Option String) : (Expr.nameOrNull var).calls = [] := by
  cases var <;> simp [Expr.nameOrNull]

theorem idents_stream (first : Expr) (rest : List Expr) :
    (Expr.stream (first :: rest)).idents = first.idents ++ rest.flatMap Expr.idents := by
  rw [Expr.stream]
  induction rest generalizing first with
  | nil => simp
  | cons e rest ih =>
    rw [List.foldl_cons, ih]
    simp

end Shapes

/-! ## Statements in a row -/

/-- Each item in a row has a property, given what the items before it give. -/
def Successive {α β : Type} (gives : α → List β) (P : List β → α → Prop) :
    List β → List α → Prop
  | _, [] => True
  | known, x :: rest => P known x ∧ Successive gives P (known ++ gives x) rest

section Successive

variable {α β : Type} {gives : α → List β} {P : List β → α → Prop} {known : List β}
  {first rest : List α}

theorem successive_append : Successive gives P known (first ++ rest) ↔
    Successive gives P known first ∧ Successive gives P (known ++ first.flatMap gives) rest := by
  induction first generalizing known with
  | nil => simp [Successive]
  | cons x first ih => simp [Successive, ih, and_assoc]

/-- A row, looked at item by item with what stands before each. -/
theorem successive_iff : Successive gives P known first ↔
    ∀ before x after, first = before ++ x :: after → P (known ++ before.flatMap gives) x := by
  constructor
  · rintro h before x after rfl
    exact (successive_append.1 h).2.1
  · intro h
    induction first generalizing known with
    | nil => trivial
    | cons x first ih =>
      refine ⟨by simpa using h [] x first rfl, ih fun before y after hsplit => ?_⟩
      rw [List.append_assoc]
      exact h (x :: before) y after (by rw [hsplit, List.cons_append])

/-- Items that need no more than what is known at first can follow each other. -/
theorem successive_of_forall (hmono : ∀ more x, P known x → P (known ++ more) x)
    (h : ∀ x ∈ first, P known x) : Successive gives P known first := by
  rw [successive_iff]
  rintro before x after rfl
  exact hmono _ x (h x (by simp))

theorem successive_flatMap {γ : Type} {xs : List γ} {f : γ → List α}
    (h : ∀ x ∈ xs, ∀ more, Successive gives P (known ++ more) (f x)) :
    Successive gives P known (xs.flatMap f) := by
  induction xs generalizing known with
  | nil => trivial
  | cons x xs ih =>
    rw [List.forall_mem_cons] at h
    refine successive_append.2 ⟨by simpa using h.1 [], ih fun y hy more => ?_⟩
    rw [List.append_assoc]
    exact h.2 y hy _

end Successive

/-- The variable that a statement declares, with its type. -/
def Stmt.declared : Stmt → List (String × String)
  | .decl type name _ => [(type, name)]
  | .construct type name _ => [(type, name)]
  | _ => []

/-- The variables that statements declare, with their types. -/
abbrev declarations (stmts : List Stmt) : List (String × String) := stmts.flatMap Stmt.declared

@[simp] theorem declared_declare (type name : String) (e : Expr) :
    (Stmt.declare type name e).declared = [(type, name)] := rfl

theorem Stmt.preorder_eq (stmts : List Stmt) : preorder stmts = stmts.flatMap subtree := by
  induction stmts with
  | nil => rfl
  | cons s rest ih => rw [preorder, ih, List.flatMap_cons]

/-- Where there is nothing inside, the statements themselves are all. -/
theorem Stmt.preorder_flat {stmts : List Stmt} (h : ∀ s ∈ stmts, s.subtree = [s]) :
    preorder stmts = stmts := by
  rw [preorder_eq, List.flatMap_congr h, List.flatMap_singleton']

/-- The names that statements and the statements inside them declare. -/
def declaredNames (stmts : List Stmt) : List String :=
  (declarations (Stmt.preorder stmts)).map (·.2)

@[simp] theorem declaredNames_append (first rest : List Stmt) :
    declaredNames (first ++ rest) = declaredNames first ++ declaredNames rest := by
  simp [declaredNames, declarations, Stmt.preorder_eq]

/-- A statement with nothing inside declares its own name or none. -/
theorem declaredNames_cons {s : Stmt} (h : s.subtree = [s]) (rest : List Stmt) :
    declaredNames (s :: rest) = s.declared.map (·.2) ++ declaredNames rest := by
  simp [declaredNames, declarations, Stmt.preorder_eq, h]

theorem declaredNames_map {α : Type} {f : α → Stmt} (name : α → String) (xs : List α)
    (hsub : ∀ x, (f x).subtree = [f x]) (hname : ∀ x, (f x).declared.map (·.2) = [name x]) :
    declaredNames (xs.map f) = xs.map name := by
  induction xs with
  | nil => rfl
  | cons x xs ih => rw [List.map_cons, declaredNames_cons (hsub x), hname, ih]; rfl

theorem declaredNames_eq_nil {stmts : List Stmt}
    (h : ∀ s ∈ stmts, s.subtree = [s] ∧ s.declared = []) : declaredNames stmts = [] := by
  induction stmts with
  | nil => rfl
  | cons s rest ih =>
    rw [List.forall_mem_cons] at h
    rw [declaredNames_cons h.1.1, h.1.2, ih h.2]
    rfl

/-! ## Blocks -/

/-- The variable in a declarator: the dimensions of an array are not part of it. -/
def variableName (declarator : String) : String :=
  String.ofList (declarator.toList.takeWhile (· ≠ '['))

/-- All identifiers of an expression are in scope. -/
def Expr.Within (visible : List String) (e : Expr) : Prop := e.idents ⊆ visible

/-- The variables in scope after a statement and not before it. -/
def Stmt.variables (s : Stmt) : List String := s.declared.map fun d => variableName d.2

section Variables

variable {type name : String} {e : Expr} {args : List Expr} {body : List Stmt}

@[simp] theorem variables_declare : (Stmt.declare type name e).variables = [variableName name] :=
  rfl

@[simp] theorem variables_declareBare :
    (Stmt.declareBare type name).variables = [variableName name] := rfl

@[simp] theorem variables_construct :
    (Stmt.construct type name args).variables = [variableName name] := rfl

@[simp] theorem variables_blank : Stmt.blank.variables = [] := rfl

@[simp] theorem variables_comment (text : String) : (Stmt.comment text).variables = [] := rfl

@[simp] theorem variables_pragma (text : String) : (Stmt.pragma text).variables = [] := rfl

@[simp] theorem variables_expr : (Stmt.expr e).variables = [] := rfl

@[simp] theorem variables_addAssign (target value : Expr) :
    (Stmt.addAssign target value).variables = [] := rfl

@[simp] theorem variables_ifThen : (Stmt.ifThen e body).variables = [] := rfl

@[simp] theorem variables_forRange {var : String} :
    (Stmt.forRange var e body).variables = [] := rfl

@[simp] theorem variables_scope : (Stmt.scope body).variables = [] := rfl

theorem takeWhile_ne_bracket {text : List Char} (h : '[' ∉ text) (rest : List Char) :
    (text ++ rest).takeWhile (· ≠ '[') = text ++ rest.takeWhile (· ≠ '[') := by
  apply List.takeWhile_append_of_pos
  intro x hx
  exact decide_eq_true fun heq => h (heq ▸ hx)

theorem variableName_eq (h : '[' ∉ name.toList) : variableName name = name := by
  have htake := takeWhile_ne_bracket h []
  rw [List.append_nil] at htake
  rw [variableName, htake]
  simp

theorem variableName_array (h : '[' ∉ name.toList) (extent : String) :
    variableName (name ++ "[" ++ extent) = name := by
  have hlist : (name ++ "[" ++ extent).toList = name.toList ++ '[' :: extent.toList := by simp
  rw [variableName, hlist, takeWhile_ne_bracket h]
  simp

end Variables

mutual

/-- All identifiers of a statement are in scope where they stand. A variable is in scope
after its declaration up to the end of the block, the variable of a loop in its body. -/
def Stmt.Scoped : List String → Stmt → Prop
  | visible, .decl _ _ init => ∀ e ∈ init, e.Within visible
  | visible, .construct _ _ args => ∀ e ∈ args, e.Within visible
  | visible, .assign target value => target.Within visible ∧ value.Within visible
  | visible, .addAssign target value => target.Within visible ∧ value.Within visible
  | visible, .expr e => e.Within visible
  | visible, .ifThen cond body => cond.Within visible ∧ Stmt.ScopedAll visible body
  | visible, .forRange var bound body => bound.Within visible ∧ Stmt.ScopedAll (var :: visible) body
  | visible, .scope body => Stmt.ScopedAll visible body
  | visible, .returnValue e => e.Within visible
  | visible, .delete e => e.Within visible
  | visible, .function head body => Stmt.ScopedAll (head.params.map (·.name) ++ visible) body
  | _, _ => True

/-- The statements of a block are scoped one after another. -/
def Stmt.ScopedAll : List String → List Stmt → Prop
  | _, [] => True
  | visible, s :: rest => s.Scoped visible ∧ Stmt.ScopedAll (s.variables ++ visible) rest

end

section Blocks

variable {visible wider : List String} {type name : String} {e target value : Expr}
  {args : List Expr} {s : Stmt} {body first rest : List Stmt}

theorem Expr.Within.mono (h : e.Within visible) (hw : visible ⊆ wider) : e.Within wider :=
  fun _ hn => hw (h hn)

theorem append_subset_append (first : List String) (hw : visible ⊆ wider) :
    first ++ visible ⊆ first ++ wider :=
  List.append_subset.2 ⟨List.subset_append_left _ _, List.subset_append_of_subset_right _ hw⟩

mutual

/-- More variables in scope do no harm. -/
theorem Stmt.Scoped.widen {visible wider : List String} (hw : visible ⊆ wider) :
    ∀ s : Stmt, s.Scoped visible → s.Scoped wider
  | .decl _ _ _, h => fun e he => (h e he).mono hw
  | .construct _ _ _, h => fun e he => (h e he).mono hw
  | .assign _ _, h => ⟨h.1.mono hw, h.2.mono hw⟩
  | .addAssign _ _, h => ⟨h.1.mono hw, h.2.mono hw⟩
  | .expr _, h => Expr.Within.mono h hw
  | .ifThen _ body, h => ⟨h.1.mono hw, Stmt.ScopedAll.widen hw body h.2⟩
  | .forRange var _ body, h =>
    ⟨h.1.mono hw, Stmt.ScopedAll.widen (List.cons_subset_cons var hw) body h.2⟩
  | .scope body, h => Stmt.ScopedAll.widen hw body h
  | .returnValue _, h => Expr.Within.mono h hw
  | .delete _, h => Expr.Within.mono h hw
  | .function _ body, h => Stmt.ScopedAll.widen (append_subset_append _ hw) body h
  | .includeSystem _, h | .includeLocal _, h | .comment _, h | .blank, h | .pragma _, h
  | .continueLoop, h | .fragment _, h | .structType _ _, h | .prototype _, h => h

theorem Stmt.ScopedAll.widen {visible wider : List String} (hw : visible ⊆ wider) :
    ∀ stmts : List Stmt, Stmt.ScopedAll visible stmts → Stmt.ScopedAll wider stmts
  | [], _ => trivial
  | s :: rest, h =>
    ⟨Stmt.Scoped.widen hw s h.1,
      Stmt.ScopedAll.widen (append_subset_append _ hw) rest h.2⟩

end

theorem Stmt.Scoped.mono (h : s.Scoped visible) (hw : visible ⊆ wider) : s.Scoped wider :=
  Stmt.Scoped.widen hw s h

theorem Stmt.ScopedAll.mono (h : Stmt.ScopedAll visible body) (hw : visible ⊆ wider) :
    Stmt.ScopedAll wider body :=
  Stmt.ScopedAll.widen hw body h

/-- Statements that need no more than what is in scope at first can follow each other. -/
theorem scopedAll_of_forall (h : ∀ s ∈ first, s.Scoped visible) :
    Stmt.ScopedAll visible first := by
  induction first generalizing visible with
  | nil => trivial
  | cons s first ih =>
    rw [List.forall_mem_cons] at h
    exact ⟨h.1, ih fun t ht => (h.2 t ht).mono (List.subset_append_right _ _)⟩

theorem Stmt.ScopedAll.append (hfirst : Stmt.ScopedAll visible first)
    (hrest : Stmt.ScopedAll (first.flatMap Stmt.variables ++ visible) rest) :
    Stmt.ScopedAll visible (first ++ rest) := by
  induction first generalizing visible with
  | nil => exact hrest
  | cons s first ih =>
    refine ⟨hfirst.1, ih hfirst.2 (hrest.mono ?_)⟩
    -- the same variables, those of the first statement elsewhere
    intro n hn
    simp only [List.flatMap_cons, List.mem_append] at hn ⊢
    tauto

@[simp] theorem within_iff : e.Within visible ↔ e.idents ⊆ visible := Iff.rfl

@[simp] theorem scoped_blank : Stmt.blank.Scoped visible := trivial

@[simp] theorem scoped_comment (text : String) : (Stmt.comment text).Scoped visible := trivial

@[simp] theorem scoped_pragma (text : String) : (Stmt.pragma text).Scoped visible := trivial

@[simp] theorem scoped_fragment (text : String) : (Stmt.fragment text).Scoped visible := trivial

@[simp] theorem scoped_continueLoop : Stmt.continueLoop.Scoped visible := trivial

@[simp] theorem scoped_declareBare : (Stmt.declareBare type name).Scoped visible :=
  fun _ he => nomatch he

@[simp] theorem scoped_declare : (Stmt.declare type name e).Scoped visible ↔ e.Within visible :=
  ⟨fun h => h e rfl, fun h _ he => Option.some.inj he ▸ h⟩

@[simp] theorem scoped_construct :
    (Stmt.construct type name args).Scoped visible ↔ ∀ a ∈ args, a.Within visible := Iff.rfl

@[simp] theorem scoped_assign :
    (Stmt.assign target value).Scoped visible ↔ target.Within visible ∧ value.Within visible :=
  Iff.rfl

@[simp] theorem scoped_addAssign :
    (Stmt.addAssign target value).Scoped visible ↔ target.Within visible ∧ value.Within visible :=
  Iff.rfl

@[simp] theorem scoped_expr : (Stmt.expr e).Scoped visible ↔ e.Within visible := Iff.rfl

@[simp] theorem scoped_ifThen :
    (Stmt.ifThen e body).Scoped visible ↔ e.Within visible ∧ Stmt.ScopedAll visible body := Iff.rfl

@[simp] theorem scoped_forRange {var : String} : (Stmt.forRange var e body).Scoped visible ↔
    e.Within visible ∧ Stmt.ScopedAll (var :: visible) body := Iff.rfl

@[simp] theorem scoped_scope :
    (Stmt.scope body).Scoped visible ↔ Stmt.ScopedAll visible body := Iff.rfl

@[simp] theorem scopedAll_nil : Stmt.ScopedAll visible [] := trivial

@[simp] theorem scopedAll_cons : Stmt.ScopedAll visible (s :: rest) ↔
    s.Scoped visible ∧ Stmt.ScopedAll (s.variables ++ visible) rest := Iff.rfl

end Blocks

end SparseTiling.Code
