import SparseTiling.Compiler

/-!
# Options of the command line

Arguments are read from left to right. Options have long names and some have short
ones; the value of an option is attached to it or is the next argument, and short
options without values can be joined. After two dashes everything is a file name.

* `Switch`: the options there are.
* `Options`: what they say.
* `Options.parse`: the options that arguments give, or why there are none.
-/

namespace SparseTiling.CommandLine

/-- What is written out. -/
inductive Product
  | inspector
  | executor
  /-- The inspector, then the executor. -/
  | both
  /-- The local names that kernels use. -/
  | bindings
  /-- What the inspector has to be called with. -/
  | arguments
  /-- The options of the compiler. -/
  | flags
  deriving DecidableEq

/-- The product with exactly this name. -/
def Product.ofName? : String → Option Product
  | "inspector" => some .inspector
  | "executor" => some .executor
  | "both" => some .both
  | "bindings" => some .bindings
  | "arguments" => some .arguments
  | "flags" => some .flags
  | _ => none

/-- What the command line asks for. -/
structure Options where
  /-- The file with the description. -/
  input : String := ""
  /-- The file for the product, which otherwise goes to the standard output. -/
  output : Option String := none
  product : Product := .inspector
  mode : Option String := none
  timing : Bool := false
  debug : Option String := none
  tileSize : Option UInt32 := none
  rank : Option UInt32 := none
  compiler : Compiler := .gnu
  /-- The name of a function around the executor. -/
  function : Option String := none
  verbosity : Nat := 0
  quiet : Bool := false
  deriving DecidableEq

/-- The options of the command line. -/
inductive Switch
  | output
  | product
  | mode
  | timing
  | debug
  | tileSize
  | rank
  | compiler
  | function
  | verbose
  | quiet
  | help
  | version
  deriving DecidableEq

/-- Why arguments give no options. -/
inductive Stop
  /-- They make no sense. -/
  | usage
  /-- They ask how the program is used. -/
  | help
  /-- They ask for the version of the program. -/
  | version
  deriving DecidableEq

namespace Switch

/-- The switch with a long name. -/
def ofLong? : String → Option Switch
  | "output" => some .output
  | "emit" => some .product
  | "mode" => some .mode
  | "timing" => some .timing
  | "debug" => some .debug
  | "tile-size" => some .tileSize
  | "rank" => some .rank
  | "compiler" => some .compiler
  | "function" => some .function
  | "verbose" => some .verbose
  | "quiet" => some .quiet
  | "help" => some .help
  | "version" => some .version
  | _ => none

/-- The switch with a short name. -/
def ofShort? : Char → Option Switch
  | 'o' => some .output
  | 'm' => some .mode
  | 'v' => some .verbose
  | 'q' => some .quiet
  | 'h' => some .help
  | 'V' => some .version
  | _ => none

/-- Whether a switch has a value. -/
def takesValue : Switch → Bool
  | .timing | .verbose | .quiet | .help | .version => false
  | _ => true

end Switch

/-- A number of 32 bits without sign. A sign may be written, but only zero can be
negative. -/
def number? (text : String) : Option UInt32 :=
  match text.toList with
  | '-' :: ds => if digits? ds = some 0 then some 0 else none
  | '+' :: ds => small? ds
  | ds => small? ds
where
  digits? (ds : List Char) : Option Nat :=
    if ds ≠ [] ∧ ds.all Char.isDigit then
      some (ds.foldl (fun n d => 10 * n + (d.toNat - '0'.toNat)) 0)
    else none
  small? (ds : List Char) : Option UInt32 :=
    (digits? ds).bind fun n => if n ≤ 0xFFFFFFFF then some (UInt32.ofNat n) else none

/-- The name of a file, which cannot be empty. -/
def fileName? (text : String) : Option String := if text = "" then none else some text

namespace Options

/-- The options with the value of a switch, if it can have that value. -/
def set? (o : Options) (switch : Switch) (value : String) : Option Options :=
  match switch with
  | .output => (fileName? value).map fun file => { o with output := some file }
  | .product => (Product.ofName? value).map fun product => { o with product }
  | .mode => some { o with mode := some value }
  | .debug => some { o with debug := some value }
  | .tileSize => (number? value).map fun size => { o with tileSize := some size }
  | .rank => (number? value).map fun rank => { o with rank := some rank }
  | .compiler => (Compiler.ofSpelling? value).map fun compiler => { o with compiler }
  | .function => some { o with function := some value }
  | _ => none

end Options

/-- Arguments that have been read in part. -/
structure Scan where
  options : Options := {}
  input : Option String := none
  /-- The switches given so far; most may be given only once. -/
  given : List Switch := []
  /-- A switch whose value is expected next. -/
  pending : Option Switch := none
  /-- Whether everything that follows is a file name. -/
  plain : Bool := false

namespace Scan

/-- The value of a switch. -/
def give (s : Scan) (switch : Switch) (value : String) : Except Stop Scan :=
  match s.options.set? switch value with
  | some options =>
    if switch ∈ s.given then .error .usage
    else .ok { s with options, given := switch :: s.given, pending := none }
  | none => .error .usage

/-- A switch without its value: it has none, or it comes next. -/
def raise (s : Scan) (switch : Switch) : Except Stop Scan :=
  match switch with
  | .help => .error .help
  | .version => .error .version
  | .verbose => .ok { s with options := { s.options with verbosity := s.options.verbosity + 1 } }
  | .timing => once { s.options with timing := true }
  | .quiet => once { s.options with quiet := true }
  | _ => .ok { s with pending := some switch }
where
  once (options : Options) : Except Stop Scan :=
    if switch ∈ s.given then .error .usage
    else .ok { s with options, given := switch :: s.given }

/-- Joined short options. What follows one with a value is its value, after an equals
sign or without it. -/
def shorts (s : Scan) : List Char → Except Stop Scan
  | [] => .ok s
  | c :: cs =>
    match Switch.ofShort? c with
    | none => .error .usage
    | some switch =>
      if switch.takesValue then
        match cs with
        | [] => s.raise switch
        | '=' :: value => s.give switch (String.ofList value)
        | value => s.give switch (String.ofList value)
      else do (← s.raise switch).shorts cs

/-- A long option, with a value after an equals sign or without one. -/
def long (s : Scan) (cs : List Char) : Except Stop Scan :=
  match Switch.ofLong? (String.ofList (cs.takeWhile (· ≠ '='))), cs.dropWhile (· ≠ '=') with
  | none, _ => .error .usage
  | some switch, [] => s.raise switch
  | some switch, _ :: value =>
    if switch.takesValue then s.give switch (String.ofList value) else .error .usage

/-- The name of the file with the description. -/
def file (s : Scan) (text : String) : Except Stop Scan :=
  match s.input, fileName? text with
  | none, some input => .ok { s with input := some input }
  | _, _ => .error .usage

/-- One argument. -/
def argument (s : Scan) (text : String) : Except Stop Scan :=
  if s.plain then s.file text
  else
    match text.toList, s.pending with
    | ['-'], some switch => s.give switch text
    | ['-'], none => s.file text
    | '-' :: _, some _ => .error .usage
    | ['-', '-'], none => .ok { s with plain := true }
    | '-' :: '-' :: cs, none => s.long cs
    | '-' :: cs, none => s.shorts cs
    | _, some switch => s.give switch text
    | _, none => s.file text

/-- The options at the end of the arguments. -/
def finish (s : Scan) : Except Stop Options :=
  match s.pending, s.input with
  | none, some input => .ok { s.options with input }
  | _, _ => .error .usage

end Scan

/-- **The options that arguments give,** or why there are none. -/
def Options.parse (arguments : List String) : Except Stop Options := do
  (← arguments.foldlM Scan.argument {}).finish

/-- How the program is used. -/
def usage : String :=
  "Generates SLOPE inspector/executor code for a loop chain\n\n" ++
  "Usage: slope-gen [OPTIONS] <FILE>\n\n" ++
  "Arguments:\n" ++
  "  <FILE>  Loop-chain description (JSON)\n\n" ++
  "Options:\n" ++
  "  -o, --output <FILE>          Output file (defaults to stdout)\n" ++
  "      --emit <EMIT>            What to emit [default: inspector] [possible values: " ++
  "inspector, executor, both, bindings, arguments, flags]\n" ++
  "  -m, --mode <MODE>            Execution mode (SEQUENTIAL, OMP, ONLY_MPI, OMP_MPI)\n" ++
  "      --timing                 Time every loop and write per-rank statistics\n" ++
  "      --debug <DEBUG>          Inspector debug verbosity " ++
  "(MINIMAL, VERY_LOW, LOW, MEDIUM, HIGH)\n" ++
  "      --tile-size <TILE_SIZE>  Average tile size\n" ++
  "      --rank <RANK>            Process rank\n" ++
  "      --compiler <COMPILER>    Compiler family for --emit=flags [default: gnu] " ++
  "[possible values: gnu, intel]\n" ++
  "      --function <NAME>        Wrap the executor in a function with this name\n" ++
  "  -v, --verbose...             Verbose output (-v, -vv, -vvv)\n" ++
  "  -q, --quiet                  Quiet mode (suppress warnings)\n" ++
  "  -h, --help                   Print help\n" ++
  "  -V, --version                Print version\n"

end SparseTiling.CommandLine
