/-!
# Errors and warnings

Every way a declaration, a setting or a generation request can be refused. A
warning says that a request was met with a fallback, or that something was left
out; generation then goes on.

* `Error`: the causes, each with the names and numbers it is about.
* `Report`: what a caller is shown: a family, a kind within it, a message and,
  for names and numbers, the offending value.
* `Error.report`: the wording of every cause, in one place.
* `Warning`: a message with notes.
-/

namespace SparseTiling

/-- What a chain declares by name. -/
inductive Item
  | set
  | map
  | loop
  deriving DecidableEq

/-- The word for an item in messages. -/
def Item.word : Item → String
  | .set => "set"
  | .map => "map"
  | .loop => "loop"

/-- Why a request was refused. -/
inductive Error
  /-- Code was asked of a chain without sets or without loops. -/
  | notConstructed (chain : String)
  /-- Two sets share a bare name. -/
  | duplicateSet (name : String)
  /-- Two maps share a bare name. -/
  | duplicateMap (name : String)
  /-- The bare name of an item is empty. -/
  | unnamed (item : Item) (position : Nat)
  /-- A set is, through its supersets, its own superset. -/
  | supersetCycle (set : String)
  /-- No access mode is spelled like this. -/
  | unknownAccess (text : String)
  /-- No value of a setting is spelled like this. -/
  | unknownMode (setting text : String) (accepted : List String)
  /-- A chain needs one kernel fragment per loop. -/
  | kernelCount (chain : String) (loops kernels : Nat)
  /-- Shared settings were installed before. -/
  | alreadyInstalled
  /-- A set names a superset that is not declared. -/
  | unknownSuperset (set superset : String)
  /-- A map goes from or to a set that is not declared. -/
  | unknownMapSet (map set : String)
  /-- A loop iterates over a set that is not declared. -/
  | unknownLoopSet (loop set : String)
  /-- A loop reaches data through a map that is not declared. -/
  | unknownLoopMap (loop map : String)
  /-- The coordinate field lives on a set that is not declared. -/
  | unknownCoordinateSet (chain set : String)
  /-- The seed loop is not one of the loops. -/
  | seedLoop (seed : Int) (loops : Nat)
  /-- The prefetch distance is negative or too large. -/
  | prefetchDistance (distance : Int)
  /-- Coordinates have one, two or three components. -/
  | coordinateArity (arity : Int)
  deriving DecidableEq

/-- Kinds of refusal that concern the state of a chain or its settings. -/
inductive ConfigurationKind
  | chainNotConstructed
  | duplicateSet
  | duplicateMap
  | emptyName
  | supersetCycle
  | invalidValue
  | kernelCountMismatch
  | alreadyInstalled
  deriving DecidableEq

/-- Kinds of name that failed to resolve. -/
inductive ReferenceKind
  | undeclaredSet
  | undeclaredMap
  deriving DecidableEq

/-- Kinds of number out of range. -/
inductive RangeKind
  | seedLoop
  | prefetchDistance
  | coordinateArity
  deriving DecidableEq

/-- A refusal as it is shown. -/
inductive Report
  | configuration (kind : ConfigurationKind) (message : String)
  | reference (kind : ReferenceKind) (name message : String)
  | range (kind : RangeKind) (value : Int) (message : String)
  /-- Printing of source text failed. No request of this library leads here. -/
  | render
  deriving DecidableEq

namespace Report

/-- The report without its family: the message and the offending value. -/
def detail : Report → String
  | .configuration _ message => message
  | .reference _ name message => message ++ " (`" ++ name ++ "`)"
  | .range _ value message => message ++ " (got " ++ toString value ++ ")"
  | .render => "an error occurred when formatting an argument"

/-- The heading of the report's family. -/
def heading : Report → String
  | .configuration .. => "Configuration error: "
  | .reference .. => "Reference error: "
  | .range .. => "Range error: "
  | .render => "Render error: "

/-- The full text of a report. -/
def text (r : Report) : String := r.heading ++ r.detail

end Report

/-- A list of words as messages show it: each in quotes, in square brackets. -/
def quotedList (words : List String) : String :=
  "[" ++ ", ".intercalate (words.map fun w => "\"" ++ w ++ "\"") ++ "]"

namespace Error

/-- **The wording of every refusal.** -/
def report : Error → Report
  | .notConstructed chain =>
    .configuration .chainNotConstructed ("loop chain `" ++ chain ++ "` not constructed yet")
  | .duplicateSet name =>
    .configuration .duplicateSet ("set `" ++ name ++ "` declared twice")
  | .duplicateMap name =>
    .configuration .duplicateMap ("map `" ++ name ++ "` declared twice")
  | .unnamed item position =>
    .configuration .emptyName
      (item.word ++ " #" ++ toString position ++ " has no usable name")
  | .supersetCycle set =>
    .configuration .supersetCycle ("superset relation is cyclic through set `" ++ set ++ "`")
  | .unknownAccess text =>
    .configuration .invalidValue
      ("unknown access mode `" ++ text ++ "` (expected READ, WRITE, RW or INC)")
  | .unknownMode setting text accepted =>
    .configuration .invalidValue
      (setting ++ " `" ++ text ++ "` not in " ++ quotedList accepted)
  | .kernelCount chain loops kernels =>
    .configuration .kernelCountMismatch
      ("chain `" ++ chain ++ "` has " ++ toString loops ++ " loops but " ++ toString kernels ++
        " kernel fragments were given")
  | .alreadyInstalled =>
    .configuration .alreadyInstalled "process-wide configuration already installed"
  | .unknownSuperset set superset =>
    .reference .undeclaredSet superset ("set `" ++ set ++ "` names an undeclared superset")
  | .unknownMapSet map set =>
    .reference .undeclaredSet set ("map `" ++ map ++ "` uses an undeclared set")
  | .unknownLoopSet loop set =>
    .reference .undeclaredSet set ("loop `" ++ loop ++ "` iterates over an undeclared set")
  | .unknownLoopMap loop map =>
    .reference .undeclaredMap map
      ("loop `" ++ loop ++ "` accesses data through an undeclared map")
  | .unknownCoordinateSet chain set =>
    .reference .undeclaredSet set
      ("coordinate field set is not part of chain `" ++ chain ++ "`")
  | .seedLoop seed loops =>
    .range .seedLoop seed ("seed loop must lie in [0, " ++ toString loops ++ ")")
  | .prefetchDistance distance =>
    .range .prefetchDistance distance "prefetch distance must be a non-negative integer"
  | .coordinateArity arity =>
    .range .coordinateArity arity "coordinate arity should be a number in [1, 2, 3]"

end Error

/-- A message with notes on what was done instead. -/
structure Warning where
  message : String
  notes : List String := []
  deriving DecidableEq

/-- The warning on one line: each note follows in parentheses. -/
def Warning.text (w : Warning) : String :=
  "warning: " ++ w.message ++ String.join (w.notes.map fun n => " (" ++ n ++ ")")

end SparseTiling
