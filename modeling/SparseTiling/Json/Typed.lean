import SparseTiling.Json.Skip

/-!
# Reading values of an expected kind

A value of the wrong kind is a mismatch. If it is a scalar, it is read to its end
first, so that a fault inside it is met before; brackets are a mismatch at once.

* `Reader.start`: a scalar, or an opening bracket.
* `Reader.string`, `Reader.bool`, `Reader.int`, `Reader.double`, `Reader.optional`,
  `Reader.list`, `Reader.word`: values of these kinds.
* `Field`, `Reader.record`: records, by keys or as lists of their fields.
* `Reader.read`: a whole text.
-/

namespace SparseTiling.Json

/-- A scalar, or the opening bracket of a list or a record. -/
inductive Start
  | null
  | bool (value : Bool)
  | number (value : Number)
  | string (text : String)
  | list
  | record

namespace Reader

variable {α σ : Type}

/-- The start of a value whose first character has been read. -/
def startFrom (first : Char) : Reader Start := do
  if first = '-' ∨ first.isDigit then
    return .number (← number first)
  else
    match first with
    | 'n' =>
      literal "ull".toList
      return .null
    | 't' =>
      literal "rue".toList
      return .bool true
    | 'f' =>
      literal "alse".toList
      return .bool false
    | '"' => return .string (← text)
    | '[' => return .list
    | '\x7b' => return .record
    | _ => fail .malformed

/-- The start of a value. -/
def start : Reader Start := do
  blanks
  match ← next? with
  | none => fail .incomplete
  | some first => startFrom first

/-- A value that starts in an expected way. -/
def expecting (accept : Start → Option α) : Reader α := do
  match accept (← start) with
  | some x => return x
  | none => fail .mismatched

/-- A text. -/
def string : Reader String :=
  expecting fun
    | .string text => some text
    | _ => none

/-- A truth value. -/
def bool : Reader Bool :=
  expecting fun
    | .bool value => some value
    | _ => none

/-- Nothing. -/
def null : Reader Unit :=
  expecting fun
    | .null => some ()
    | _ => none

/-- A whole number between two bounds. -/
def int (least greatest : Int) : Reader Int :=
  expecting fun
    | .number (.int value) => if least ≤ value ∧ value ≤ greatest then some value else none
    | _ => none

/-- A number of 32 bits without sign. -/
def uint32 : Reader UInt32 := do return UInt32.ofNat (← int 0 0xFFFFFFFF).toNat

/-- A number of 32 bits with sign. -/
def int32 : Reader Int32 := do return Int32.ofInt (← int (-0x80000000) 0x7FFFFFFF)

/-- A number of 64 bits with sign. -/
def int64 : Reader Int64 := do return Int64.ofInt (← int (-0x8000000000000000) 0x7FFFFFFFFFFFFFFF)

/-- The double nearest to a whole number. -/
def doubleOfInt (value : Int) : Binary64 :=
  if value < 0 then (Binary64.ofNat value.natAbs).neg else .ofNat value.natAbs

/-- A double; a whole number will do. -/
def double : Reader Binary64 :=
  expecting fun
    | .number (.int value) => some (doubleOfInt value)
    | .number (.double value) => some value
    | _ => none

/-- A value, or null in its place. -/
def optional (r : Reader α) : Reader (Option α) := do
  blanks
  match ← peek? with
  | some 'n' =>
    null
    return none
  | _ => return some (← r)

/-- Items of one kind. -/
def list (r : Reader α) : Reader (List α) := do
  match ← start with
  | .list => return (← enclosed ']' (fun xs => do return (← r) :: xs) []).reverse
  | _ => fail .mismatched

/-- The meaning of a text, which has to have one. -/
def meaning (ofText? : String → Option α) : Reader α := do
  mark '"'
  match ofText? (← text) with
  | some x => return x
  | none => fail .mismatched

/-- One of a list of words, as a text or as the only key of a record, with null as
its value. Nothing but a text or a record starts a word. -/
def word (ofText? : String → Option α) : Reader α := do
  blanks
  match ← peek? with
  | none => fail .incomplete
  | some '\x7b' =>
    let _ ← next?
    let x ← meaning ofText?
    mark ':'
    null
    mark '\x7d'
    return x
  | some _ => meaning ofText?

end Reader

/-- A field of a record under construction. -/
structure Field (σ : Type) where
  key : String
  /-- Whether a record without the field is a mismatch. -/
  required : Bool
  /-- Reads a value and says how it changes the record. -/
  set : Reader (σ → σ)

/-- A field that every record has. -/
def Field.needed {α σ : Type} (key : String) (value : Reader α) (set : σ → α → σ) : Field σ :=
  { key, required := true, set := do let x ← value; return fun built => set built x }

/-- A field that may be left out. -/
def Field.defaulted {α σ : Type} (key : String) (value : Reader α) (set : σ → α → σ) : Field σ :=
  { key, required := false, set := do let x ← value; return fun built => set built x }

namespace Reader

variable {α σ : Type}

/-- A member of a record: an expected field, at most once, or one that is passed
over. The state holds the keys of the fields read so far. -/
def member (fields : List (Field σ)) (state : List String × σ) : Reader (List String × σ) := do
  let (seen, built) := state
  mark '"'
  let key ← text
  match fields.find? fun field => field.key = key with
  | none =>
    mark ':'
    skip
    return (seen, built)
  | some field =>
    if key ∈ seen then fail .mismatched
    else
      mark ':'
      return (key :: seen, (← field.set) built)

/-- A record by its keys, in any order. -/
def keyed (fields : List (Field σ)) (initial : σ) : Reader σ := do
  let (seen, built) ← enclosed '\x7d' (member fields) ([], initial)
  if fields.all fun field => !field.required || field.key ∈ seen then return built
  else fail .mismatched

/-- The next field of a record that is written as a list. The state holds the fields
that are still to come. -/
def position (state : List (Field σ) × σ) : Reader (List (Field σ) × σ) :=
  match state with
  | ([], _) => fail .malformed
  | (field :: fields, built) => do return (fields, (← field.set) built)

/-- A record as the list of its fields, in their order. -/
def positional (fields : List (Field σ)) (initial : σ) : Reader σ := do
  let (missing, built) ← enclosed ']' position (fields, initial)
  if missing.all fun field => !field.required then return built else fail .mismatched

/-- **A record,** by its keys or as the list of its fields. Fields that are left out
keep their value in `initial`. -/
def record (fields : List (Field σ)) (initial : σ) : Reader σ := do
  match ← start with
  | .record => keyed fields initial
  | .list => positional fields initial
  | _ => fail .mismatched

/-- **The value of a whole text,** after which nothing but blanks may follow. -/
def read (r : Reader α) (text : String) : Except Fault α :=
  match r.run text.toList with
  | .error fault => .error fault
  | .ok (x, rest) => if rest.all isSpace then .ok x else .error .malformed

end Reader

end SparseTiling.Json
