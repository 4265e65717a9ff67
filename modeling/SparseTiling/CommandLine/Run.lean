import SparseTiling.CommandLine.Details
import SparseTiling.CommandLine.Files
import SparseTiling.CommandLine.Options
import SparseTiling.CommandLine.Report
import SparseTiling.Description.Read
import SparseTiling.Executor
import SparseTiling.Inspector
import SparseTiling.Listing

/-!
# Runs of the program

A run reads a description, lets the options override parts of it, and writes one
product. What it has to say on the way stays said when it fails later.

* `Options.override`: the description that is used.
* `produce`: the product of a description.
* `run`: everything from the arguments to the exit status.
-/

namespace SparseTiling.CommandLine

/-- Steps that add to a log and may fail. The log outlives a failure. -/
abbrev Steps (m : Type → Type) := ExceptT Failure (StateT (List LogEntry) m)

variable {m : Type → Type} [Monad m] {α : Type}

/-- Add entries to the log. -/
def say (entries : List LogEntry) : Steps m Unit := modify (· ++ entries)

/-- Add warnings to the log. -/
def warn (ws : List Warning) : Steps m Unit := say (ws.map .ofWarning)

/-- Add a line for the curious to the log. -/
def inform (origin message : String) : Steps m Unit := say [{ level := .info, origin, message }]

/-- Add a line for those who want to know everything to the log. -/
def explain (origin message : String) : Steps m Unit := say [{ level := .detail, origin, message }]

/-- A result, or the failure of a refused request. -/
def accept (result : Except Error α) : Steps m α :=
  match result with
  | .ok x => return x
  | .error e => throw (.ofError e)

/-- Steps inside something larger, which fails with them. -/
def inside (summary : String) (steps : Steps m α) : Steps m α :=
  tryCatch steps fun failure => throw (failure.within summary)

/-- The description with what the options say in place of what it says. -/
def Options.override (o : Options) (d : Description) : Description :=
  { d with
    execution := o.mode.orElse fun _ => d.execution
    debug := o.debug.orElse fun _ => d.debug
    timing := o.timing || d.timing
    tileSize := o.tileSize.orElse fun _ => d.tileSize
    rank := o.rank.orElse fun _ => d.rank }

/-- A line of the log on what a session has of something by now. -/
def explainDeclared (s : Session) (count : Nat) (things : String) : Steps m Unit :=
  explain "slope_gen::model::chain"
    ("chain `" ++ s.chain.name ++ "`: " ++ toString count ++ " " ++ things ++ " declared")

/-- The declarations of a description. -/
def declare (d : Description) : Steps m Session := do
  let s ← accept ((Session.new d.name).declareSets d.sets)
  explainDeclared s s.chain.sets.length "sets"
  let s ← accept (s.declareMaps d.maps)
  explainDeclared s s.chain.maps.length "maps"
  let s ← accept (s.declareLoops d.loops)
  explainDeclared s s.chain.loops.length "loops"
  return s

/-- The session of a description. Warnings are logged as they arise, so those from
before a failure are there. -/
def openSession (d : Description) : Steps m Session :=
  inside ("Invalid loop chain `" ++ d.name ++ "`") do
    let prepared ← accept (d.settle (← declare d))
    warn prepared.warnings
    let session ← accept (d.complete prepared)
    warn (session.warnings.drop prepared.warnings.length)
    return session

/-- The settings of a session, from now on fixed. -/
def freeze (s : Session) : Steps m Settings := do
  explain "slope_gen::config" ("configuration frozen: " ++ settingsText s.settings)
  return s.settings

/-- Lines of the log on a generated inspector. -/
def explainInspector (c : Chain) (settings : Settings) (e : Inspector.Emission) :
    Steps m Unit := do
  if settings.partitioning.usesTopology then
    let count := (Inspector.meshMapRows c settings).length
    say [{
      level := .trace
      origin := "slope_gen::codegen::inspector"
      message := toString count ++ " mesh maps emitted" }]
  warn e.warnings
  explain "slope_gen::codegen::inspector"
    ("inspector for `" ++ c.name ++ "`: " ++ toString c.loops.length ++ " loops, seed loop " ++
      toString e.seed ++ ", " ++ toString e.source.utf8ByteSize ++ " bytes")

/-- The inspector of a session. -/
def inspect (s : Session) : Steps m Inspector.Emission := do
  let settings ← freeze s
  let emission ← accept (Inspector.generate s.chain settings)
  explainInspector s.chain settings emission
  inform "slope_gen::session" ("generated inspector for chain `" ++ s.chain.name ++ "`")
  return emission

/-- A line of the log on a generated executor. -/
def explainExecutor (c : Chain) (settings : Settings) (e : Executor.Emission) : Steps m Unit :=
  explain "slope_gen::codegen::executor"
    ("executor for `" ++ c.name ++ "`: " ++ toString e.bindings.length ++ " loops, mode " ++
      executionText settings.execution ++ ", timing " ++ toString settings.timing)

/-- A comment in place of a kernel that names what it can use. -/
def placeholder (b : Executor.Binding) : String :=
  "// " ++ b.loopName ++ ": iterations " ++ b.iterations ++ ", maps [" ++
    ", ".intercalate (b.localMaps.map (·.2)) ++ "]"

/-- The executor of a session, with placeholders if there are no kernels at all. -/
def execute (s : Session) (kernels : List String) : Steps m Executor.Emission := do
  let settings ← freeze s
  if kernels.isEmpty then
    let emission ← accept (Executor.generateWith s.chain settings placeholder)
    explainExecutor s.chain settings emission
    return emission
  else
    let emission ← accept (Executor.generate s.chain settings kernels)
    explainExecutor s.chain settings emission
    inform "slope_gen::session" ("generated executor for chain `" ++ s.chain.name ++ "`")
    return emission

/-- The source of an executor, in a function if the options name one. -/
def Options.executorSource (o : Options) (e : Executor.Emission) : String :=
  o.function.elim e.source e.wrap

/-- **The product of a description.** -/
def produce (o : Options) (d : Description) : Steps m String := do
  let session ← openSession d
  match o.product with
  | .inspector => return (← inspect session).source
  | .executor => return o.executorSource (← execute session d.kernels)
  | .both =>
    let inspector ← inspect session
    let executor ← execute session d.kernels
    return inspector.source ++ "\n" ++ o.executorSource executor
  | .bindings => return Executor.listing (← execute session d.kernels).bindings
  | .arguments => return Inspector.listing (← inspect session).arguments
  | .flags => return " ".intercalate (o.compiler.options (← freeze session)) ++ "\n"

/-- The text of the input file. -/
def readInput (files : Files m) (path : String) : Steps m String := do
  match ← files.read path with
  | .ok text => return text
  | .error fault =>
    throw { summary := "Failed to read input file: " ++ Text.shown path, causes := [fault.text] }

/-- The description in the input file. -/
def parseInput (path text : String) : Steps m Description :=
  match Description.read text with
  | .ok d => return d
  | .error fault =>
    throw {
      summary := "Failed to parse chain description: " ++ Text.shown path
      causes := [faultText fault] }

/-- Write the product to the output file; without one, what is to be printed. -/
def deliver (files : Files m) (output : Option String) (product : String) : Steps m String := do
  match output with
  | none => return product
  | some path =>
    match ← files.write path product with
    | .ok () => return ""
    | .error fault =>
      throw { summary := "Failed to write output file: " ++ Text.shown path, causes := [fault.text] }

/-- A run with given options; gives what is to be printed. -/
def perform (files : Files m) (o : Options) : Steps m String := do
  inform "slope_gen" ("slope-gen v" ++ version)
  explain "slope_gen" ("Input file: " ++ Text.shown o.input)
  let text ← readInput files o.input
  let d ← parseInput o.input text
  deliver files o.output (← produce o (o.override d))

/-- What the rest of the world sees of a run. -/
structure Outcome where
  exit : UInt32
  output : String := ""
  errors : String := ""
  deriving DecidableEq

/-- Whether an entry of the log is shown. -/
def Options.shows (o : Options) (e : LogEntry) : Bool :=
  !o.quiet && e.level.verbosity ≤ o.verbosity

/-- **A run of the program:** status 2 for arguments that make no sense, 1 for a
failure, 0 otherwise. -/
def run (files : Files m) (arguments : List String) : m Outcome :=
  match Options.parse arguments with
  | .error .usage => return { exit := 2, errors := usage }
  | .error .help => return { exit := 0, output := usage }
  | .error .version => return { exit := 0, output := "slope-gen " ++ version ++ "\n" }
  | .ok o => do
    let (result, log) ← (perform files o).run.run []
    let errors := String.join ((log.filter o.shows).map (·.text))
    match result with
    | .ok output => return { exit := 0, output, errors }
    | .error failure => return { exit := 1, errors := errors ++ failure.text }

end SparseTiling.CommandLine
