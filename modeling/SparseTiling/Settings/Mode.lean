import SparseTiling.Error

/-!
# Modes

A mode is a setting with a fixed list of values, each with a spelling for the
user and a symbol in the emitted code. Spellings are read in any case of ASCII
letters, either strictly or leniently: an unknown spelling then gives the fallback
and a warning, so that code is still generated.

* `Mode`: what a setting has to say about its values.
* `Mode.parse`, `Mode.resolve`: strict and lenient reading.
* `ExecutionMode`, `ColoringMode`, `PartitionMode`, `DebugMode`: the settings.
-/

namespace SparseTiling

/-- A setting with a fixed list of values. -/
class Mode (α : Type) where
  /-- What the setting is called in messages. -/
  setting : String
  /-- The value in place of an unknown spelling. -/
  fallback : α
  /-- The values with their spellings. -/
  spellings : List (String × α)
  /-- The symbol of a value in emitted code. -/
  symbol : α → String

namespace Mode

variable {α : Type} [Mode α]

/-- The accepted spellings. -/
def accepted (α : Type) [Mode α] : List String := (spellings (α := α)).map (·.1)

/-- Texts that differ at most in the case of ASCII letters. -/
def sameLetters (s t : String) : Bool := s.toList.map Char.toLower == t.toList.map Char.toLower

/-- The value that a text spells. -/
def parse (text : String) : Except Error α :=
  match (spellings (α := α)).find? fun entry => sameLetters entry.1 text with
  | some entry => .ok entry.2
  | none => .error (.unknownMode (setting α) text (accepted α))

/-- The value with exactly this spelling. -/
def ofSpelling? (text : String) : Option α :=
  ((spellings (α := α)).find? fun entry => entry.1 = text).map (·.2)

/-- The spelling of a value. -/
def spelling (mode : α) : String :=
  (((spellings (α := α)).find? fun entry => symbol entry.2 = symbol mode).map (·.1)).getD ""

/-- The warning about an unknown spelling. -/
def fallbackWarning (α : Type) [Mode α] (text : String) : Warning :=
  { message := (Error.unknownMode (setting α) text (accepted α)).report.detail
    notes := [setting α ++ " set to " ++ symbol (fallback (α := α))] }

/-- The value that a text spells, or the fallback and a warning. -/
def resolve (text : String) : α × List Warning :=
  match parse text with
  | .ok mode => (mode, [])
  | .error _ => (fallback, [fallbackWarning α text])

end Mode

/-- How tiles are run in parallel. -/
inductive ExecutionMode
  | sequential
  | threads
  | processes
  | threadsAndProcesses
  deriving DecidableEq

instance : Mode ExecutionMode where
  setting := "execution mode"
  fallback := .sequential
  spellings :=
    [("SEQUENTIAL", .sequential), ("OMP", .threads), ("ONLY_MPI", .processes),
      ("OMP_MPI", .threadsAndProcesses)]
  symbol
    | .sequential => "SEQUENTIAL"
    | .threads => "OMP"
    | .processes => "ONLY_MPI"
    | .threadsAndProcesses => "OMP_MPI"

/-- Whether tiles of one color run on several threads. -/
def ExecutionMode.isShared : ExecutionMode → Bool
  | .threads | .threadsAndProcesses => true
  | .sequential | .processes => false

/-- How tiles are colored. -/
inductive ColoringMode
  | standard
  | random
  | fewest
  deriving DecidableEq

instance : Mode ColoringMode where
  setting := "coloring mode"
  fallback := .standard
  spellings := [("default", .standard), ("rand", .random), ("mincols", .fewest)]
  symbol
    | .standard => "COL_DEFAULT"
    | .random => "COL_RAND"
    | .fewest => "COL_MINCOLS"

/-- How the iterations of the seed loop are divided into tiles. -/
inductive PartitionMode
  | chunk
  /-- By a partitioner that looks at the topology of the mesh. -/
  | metis
  deriving DecidableEq

instance : Mode PartitionMode where
  setting := "partitioning mode"
  fallback := .chunk
  spellings := [("chunk", .chunk), ("metis", .metis)]
  symbol
    | .chunk => "chunk"
    | .metis => "metis"

/-- Whether the mesh maps are used. -/
def PartitionMode.usesTopology : PartitionMode → Bool
  | .chunk => false
  | .metis => true

/-- How much the inspector reports about itself. -/
inductive DebugMode
  | minimal
  | veryLow
  | low
  | medium
  | high
  deriving DecidableEq

instance : Mode DebugMode where
  setting := "debug mode"
  fallback := .minimal
  spellings :=
    [("MINIMAL", .minimal), ("VERY_LOW", .veryLow), ("LOW", .low), ("MEDIUM", .medium),
      ("HIGH", .high)]
  symbol
    | .minimal => "MINIMAL"
    | .veryLow => "VERY_LOW"
    | .low => "LOW"
    | .medium => "MEDIUM"
    | .high => "HIGH"

end SparseTiling
