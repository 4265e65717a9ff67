import Mathlib.Tactic
import SparseTiling.Code.Stmt

/-!
# What emitted code does

A sequential meaning for the statements that emitted code is made of. A state holds the
variables in scope, block by block, and what has happened so far. Kernels are not
looked into: running one is an event, and takes time.

* `Value`, `Frames`, `State`: values, variables and states.
* `Platform`: what emitted code calls, open to any behaviour.
* `eval`: the value of an expression. Expressions have no effect.
* `exec`, `execAll`: the effect of statements. A statement that makes no sense has none.

A loop runs its variable from zero up to its bound, which is evaluated once. Variables
of a block end with it. Pragmas are passed over: this is the meaning without threads.
-/

namespace SparseTiling.Code

variable {Obj : Type}

/-! ## States -/

/-- A value. Whole numbers stand for times as well. -/
inductive Value (Obj : Type)
  /-- A variable that was declared without a value. -/
  | unset
  | int (n : Int)
  | str (text : String)
  /-- An object of the tiling library. -/
  | obj (o : Obj)
  | null
  /-- An array, a vector, or what was written to a stream. -/
  | array (items : List (Value Obj))

/-- The variables of a block, the last declared first. -/
abbrev Frame (Obj : Type) := List (String × Value Obj)

/-- The variables in scope, the innermost block first. -/
abbrev Frames (Obj : Type) := List (Frame Obj)

/-- Overwrite a variable of a block. -/
def Frame.put (name : String) (v : Value Obj) : Frame Obj → Frame Obj
  | [] => []
  | d :: f => if name = d.1 then (d.1, v) :: f else d :: put name v f

namespace Frames

/-- The value of the innermost variable with a name. -/
def value? (fs : Frames Obj) (name : String) : Option (Value Obj) :=
  fs.findSome? fun f => f.lookup name

/-- A new variable of the innermost block. -/
def declare (name : String) (v : Value Obj) : Frames Obj → Frames Obj
  | [] => [[(name, v)]]
  | f :: fs => ((name, v) :: f) :: fs

/-- Overwrite the innermost variable with a name. -/
def put (name : String) (v : Value Obj) : Frames Obj → Frames Obj
  | [] => []
  | f :: fs => if (f.lookup name).isSome then Frame.put name v f :: fs else f :: put name v fs

end Frames

/-- The object that a value is, if it is one. -/
def Value.object? : Value Obj → Option Obj
  | .obj o => some o
  | _ => none

/-- The objects of the tiling library that variables of a block stand for. -/
def Frame.objects (f : Frame Obj) : List Obj := f.filterMap fun d => d.2.object?

/-- The objects of the tiling library in scope. -/
def Frames.objects (fs : Frames Obj) : List Obj := fs.flatMap Frame.objects

/-- A kernel that was run, with the variables it could see. -/
structure Event (Obj : Type) where
  text : String
  frames : Frames Obj

/-- The variables in scope, the time, and the kernels run so far. -/
structure State (Obj : Type) where
  frames : Frames Obj
  now : Int
  trace : List (Event Obj)

/-- What emitted code calls. A tile may be missing. The time that a kernel takes is
settled by its text and the objects in scope; nothing else takes time. -/
structure Platform (Obj : Type) where
  numColors : Obj → Int
  tilesPerColor : Obj → Int → Int
  tileAt : Obj → Int → Int → Int → Option Obj
  loopSize : Obj → Int → Int
  localMap : Obj → Int → String → Obj
  iterations : Obj → Int → Obj
  duration : String → List Obj → Int
  /-- What inquiries about files and directories answer. -/
  status : String → Int

/-- The time that a kernel takes. -/
def Platform.time (p : Platform Obj) (e : Event Obj) : Int := p.duration e.text e.frames.objects

/-! ## Expressions -/

/-- The result of a call, at a time. -/
def Platform.call (p : Platform Obj) (now : Int) : String → List (Value Obj) → Option (Value Obj)
  | "exec_num_colors", [.obj x] => some (.int (p.numColors x))
  | "exec_tiles_per_color", [.obj x, .int c] => some (.int (p.tilesPerColor x c))
  | "exec_tile_at", [.obj x, .int c, .int t, .int r] =>
    some (match p.tileAt x c t r with
      | some tile => .obj tile
      | none => .null)
  | "tile_loop_size", [.obj t, .int l] => some (.int (p.loopSize t l))
  | "tile_get_local_map", [.obj t, .int l, .str m] => some (.obj (p.localMap t l m))
  | "tile_get_iterations", [.obj t, .int l] => some (.obj (p.iterations t l))
  | "time_stamp", [] => some (.int now)
  | "stat", [.str path, _] => some (.int (p.status path))
  | "mkdir", [.str path, .int _] => some (.int (p.status path))
  | _, _ => none

/-- What a condition says of a value. -/
def Value.holds? : Value Obj → Option Bool
  | .int n => some (n ≠ 0)
  | .obj _ => some true
  | .null => some false
  | _ => none

/-- The element of an array. -/
def Value.element? : Value Obj → Value Obj → Option (Value Obj)
  | .array items, .int n => if 0 ≤ n then items[n.toNat]? else none
  | _, _ => none

/-- A method that only looks at its object. -/
def Value.method? (v : Value Obj) (name : String) : Option (Value Obj) :=
  match v, name with
  | .array items, "size" => some (.int items.length)
  | .array items, "str" => some (.array items)
  | _, _ => none

def Value.minus? : Value Obj → Value Obj → Option (Value Obj)
  | .int a, .int b => some (.int (a - b))
  | _, _ => none

def Value.plus? : Value Obj → Value Obj → Option (Value Obj)
  | .int a, .int b => some (.int (a + b))
  | _, _ => none

def Value.equals? : Value Obj → Value Obj → Option (Value Obj)
  | .int a, .int b => some (.int (if a = b then 1 else 0))
  | _, _ => none

mutual

/-- The value of an expression. -/
def eval (p : Platform Obj) (σ : State Obj) : Expr → Option (Value Obj)
  | .ident name => σ.frames.value? name
  | .int n => some (.int n)
  | .float v => if v = .zero then some (.int 0) else none
  | .bool b => some (.int (if b then 1 else 0))
  | .str text => some (.str text)
  | .null => some .null
  | .call (.ident f) args => do p.call σ.now f (← evalAll p σ args)
  | .call (.field base name) [] => do (← eval p σ base).method? name
  | .index base position => do (← eval p σ base).element? (← eval p σ position)
  | .addressOf e => eval p σ e
  | .not e => do return .int (if ← (← eval p σ e).holds? then 0 else 1)
  | .cast _ e => eval p σ e
  | .binary .sub l r => do (← eval p σ l).minus? (← eval p σ r)
  | .binary .eq l r => do (← eval p σ l).equals? (← eval p σ r)
  | .list items => do return .array (← evalAll p σ items)
  | _ => none

/-- The values of expressions, in their order. -/
def evalAll (p : Platform Obj) (σ : State Obj) : List Expr → Option (List (Value Obj))
  | [] => some []
  | e :: es => do
    let v ← eval p σ e
    let vs ← evalAll p σ es
    return v :: vs

end

/-! ## Variables and elements -/

/-- A variable, or an element of an array variable. -/
abbrev Place := String × Option Int

/-- The place that an expression stands for. -/
def place (p : Platform Obj) (σ : State Obj) : Expr → Option Place
  | .ident name => some (name, none)
  | .index (.ident name) e => do
    match ← eval p σ e with
    | .int n => return (name, some n)
    | _ => none
  | _ => none

namespace Frames

/-- What is at a place. -/
def read (fs : Frames Obj) : Place → Option (Value Obj)
  | (name, none) => fs.value? name
  | (name, some n) => do (← fs.value? name).element? (.int n)

/-- Overwrite what is at a place. -/
def write (fs : Frames Obj) (v : Value Obj) : Place → Option (Frames Obj)
  | (name, none) => if (fs.value? name).isSome then some (fs.put name v) else none
  | (name, some n) => do
    match ← fs.value? name with
    | .array items =>
      if 0 ≤ n ∧ n.toNat < items.length then some (fs.put name (.array (items.set n.toNat v)))
      else none
    | _ => none

end Frames

/-- Change what is at a place. -/
def State.change (σ : State Obj) (q : Place) (f : Value Obj → Option (Value Obj)) :
    Option (State Obj) := do
  let v ← σ.frames.read q
  let frames ← σ.frames.write (← f v) q
  return { σ with frames }

/-- Add items at the end. -/
def Value.append? (items : List (Value Obj)) : Value Obj → Option (Value Obj)
  | .array old => some (.array (old ++ items))
  | _ => none

/-! ## Statements -/

/-- The name and, for an array, the extent that a declaration gives. The extent stands in
brackets at the end. -/
def declarator (text : String) : String × Option Nat :=
  match text.toList.reverse with
  | ']' :: rest =>
    let digits := rest.takeWhile (· ≠ '[')
    (String.ofList (rest.drop (digits.length + 1)).reverse,
      some (Nat.ofDigitChars 10 digits.reverse 0))
  | _ => (text, none)

/-- What a variable of a type holds before it is given a value. -/
def blankOf (type : String) : Value Obj :=
  if type = "int" ∨ type = "double" then .unset else .array []

/-- The elements of an array that are not listed are zero. -/
def padded (n : Nat) (items : List (Value Obj)) : Value Obj :=
  .array ((List.range n).map fun i => items[i]?.getD (.int 0))

/-- The first value of a declared variable. -/
def initial (type : String) (extent : Option Nat) (init : Option (Value Obj)) : Option (Value Obj) :=
  match extent, init with
  | none, none => some (blankOf type)
  | none, some v => some v
  | some n, none => some (.array (List.replicate n (blankOf type)))
  | some n, some (.array items) => some (padded n items)
  | some _, some _ => none

/-- A declaration, once its value is known. -/
def State.declare (σ : State Obj) (type text : String) (init : Option (Value Obj)) :
    Option (State Obj) := do
  let (name, extent) := declarator text
  return { σ with frames := σ.frames.declare name (← initial type extent init) }

/-- The stream and the items of a stream output. -/
def outputs : Expr → Option (String × List Expr)
  | .ident name => some (name, [])
  | .binary .shl l r => do
    let (name, items) ← outputs l
    return (name, items ++ [r])
  | _ => none

/-- The effect of an expression that stands as a statement. -/
def perform (p : Platform Obj) (σ : State Obj) : Expr → Option (State Obj)
  | .call (.field target "push_back") [e] => do
    let v ← eval p σ e
    σ.change (← place p σ target) (Value.append? [v])
  | .call (.field target "insert")
      [.call (.field t "end") [], .call (.field a "begin") [], .call (.field b "end") []] => do
    let q ← place p σ target
    let r ← place p σ a
    -- the end of the target, and both ends of one source
    if (← place p σ t) = q ∧ (← place p σ b) = r then
      match ← σ.frames.read r with
      | .array items => σ.change q (Value.append? items)
      | _ => none
    else none
  | .call (.field (.ident name) "close") [] => do
    let _ ← σ.frames.value? name
    return σ
  | .call (.ident f) args => do
    let _ ← p.call σ.now f (← evalAll p σ args)
    return σ
  | .binary .shl l r => do
    let (name, items) ← outputs (.binary .shl l r)
    σ.change (name, none) (Value.append? (← evalAll p σ items))
  | _ => none

/-- How a statement ends: with the next one, by going on with the next iteration, or by
leaving the function. -/
inductive Flow
  | next
  | skip
  | leave
  deriving DecidableEq

/-- Run a block: its variables end with it. -/
def block (f : Frame Obj) (run : State Obj → Option (Flow × State Obj)) (σ : State Obj) :
    Option (Flow × State Obj) := do
  let (flow, σ') ← run { σ with frames := f :: σ.frames }
  return (flow, { σ' with frames := σ'.frames.tail })

/-- The iterations of a loop, in a given order. -/
def forEach (run : Nat → State Obj → Option (Flow × State Obj)) :
    List Nat → State Obj → Option (Flow × State Obj)
  | [], σ => some (.next, σ)
  | k :: ks, σ => do
    let (flow, σ') ← run k σ
    if flow = .leave then return (.leave, σ') else forEach run ks σ'

/-- One iteration of a loop. -/
def iteration (var : String) (run : State Obj → Option (Flow × State Obj)) (k : Nat) :
    State Obj → Option (Flow × State Obj) :=
  block [(var, .int k)] run

/-- The number of iterations that a bound stands for. -/
def Value.count? : Value Obj → Option Nat
  | .int n => some n.toNat
  | _ => none

/-- A kernel is run. -/
def State.kernel (p : Platform Obj) (σ : State Obj) (text : String) : State Obj where
  frames := σ.frames
  now := σ.now + p.time { text, frames := σ.frames }
  trace := σ.trace ++ [{ text, frames := σ.frames }]

mutual

/-- The effect of a statement. -/
def exec (p : Platform Obj) : Stmt → State Obj → Option (Flow × State Obj)
  | .decl type text (some e), σ => do
    return (.next, ← σ.declare type text (some (← eval p σ e)))
  | .decl type text none, σ => do return (.next, ← σ.declare type text none)
  | .construct type text args, σ => do
    let _ ← evalAll p σ args
    return (.next, ← σ.declare type text none)
  | .assign target e, σ => do
    let v ← eval p σ e
    return (.next, { σ with frames := ← σ.frames.write v (← place p σ target) })
  | .addAssign target e, σ => do
    let v ← eval p σ e
    return (.next, ← σ.change (← place p σ target) (Value.plus? · v))
  | .expr e, σ => do return (.next, ← perform p σ e)
  | .ifThen cond body, σ => do
    if ← (← eval p σ cond).holds? then block [] (execAll p body) σ else return (.next, σ)
  | .forRange var bound body, σ => do
    let n ← (← eval p σ bound).count?
    forEach (iteration var (execAll p body)) (List.range n) σ
  | .scope body, σ => block [] (execAll p body) σ
  | .continueLoop, σ => some (.skip, σ)
  | .returnValue e, σ => do
    let _ ← eval p σ e
    return (.leave, σ)
  | .delete e, σ => do
    let _ ← eval p σ e
    return (.next, σ)
  | .fragment text, σ => some (.next, σ.kernel p text)
  | _, σ => some (.next, σ)

/-- The effect of statements one after another, up to one that does not go on. -/
def execAll (p : Platform Obj) : List Stmt → State Obj → Option (Flow × State Obj)
  | [], σ => some (.next, σ)
  | s :: rest, σ => do
    let (flow, σ') ← exec p s σ
    if flow = .next then execAll p rest σ' else return (flow, σ')

end

end SparseTiling.Code
