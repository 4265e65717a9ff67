import SparseTiling.Error
import SparseTiling.Json.Reader
import SparseTiling.Text.Control

/-!
# Messages of a run

What a run writes to the standard error: lines of a log and, if it fails, a summary
with its causes.

* `LogEntry`: a line of the log.
* `Failure`: a summary and its causes, the nearest first.
-/

namespace SparseTiling.CommandLine

/-- How important a line of the log is. -/
inductive Level
  | warning
  | info
  | detail
  | trace
  deriving DecidableEq

namespace Level

/-- How a line of the log starts. -/
def name : Level → String
  | .warning => "WARN "
  | .info => "INFO "
  | .detail => "DEBUG"
  | .trace => "TRACE"

/-- How often one has to ask to see such lines. -/
def verbosity : Level → Nat
  | .warning => 0
  | .info => 1
  | .detail => 2
  | .trace => 3

end Level

/-- A line of the log. -/
structure LogEntry where
  level : Level
  /-- The part of the program that has something to say. -/
  origin : String
  message : String
  deriving DecidableEq

/-- A text with blanks after every line break. -/
def indentLines (blanks : Nat) (text : String) : String :=
  String.ofList (text.toList.flatMap fun c =>
    if c = '\n' then '\n' :: List.replicate blanks ' ' else [c])

namespace LogEntry

/-- A warning. -/
def ofWarning (w : Warning) : LogEntry :=
  { level := .warning, origin := "slope_gen::utils::errors", message := w.text }

/-- The line of an entry, without what would control a terminal. -/
def text (e : LogEntry) : String :=
  Text.withoutControls
    ("[" ++ e.level.name ++ " " ++ e.origin ++ "] " ++ indentLines 4 e.message ++ "\n")

end LogEntry

/-- A failure: what did not work, and why, the nearest cause first. -/
structure Failure where
  summary : String
  causes : List String := []
  deriving DecidableEq

namespace Failure

/-- The failure of a refused request. -/
def ofError (e : Error) : Failure := { summary := e.report.text, causes := [e.report.detail] }

/-- A failure inside something larger that did not work either. -/
def within (summary : String) (f : Failure) : Failure := { summary, causes := f.summary :: f.causes }

/-- The causes, numbered if there are several. -/
def causeLines : List String → String
  | [] => ""
  | [cause] => "\n\nCaused by:\n    " ++ indentLines 4 cause
  | causes =>
    "\n\nCaused by:" ++ String.join (causes.zipIdx.map fun (cause, n) =>
      "\n    " ++ toString n ++ ": " ++ indentLines 7 cause)

/-- The text of a failure. -/
def text (f : Failure) : String := "Error: " ++ f.summary ++ causeLines f.causes ++ "\n"

end Failure

/-- What is wrong with a text that should be a description. -/
def faultText : Json.Fault → String
  | .incomplete => "unexpected end of the description"
  | .malformed => "the description is not JSON"
  | .mismatched => "the description has an unexpected value"

end SparseTiling.CommandLine
