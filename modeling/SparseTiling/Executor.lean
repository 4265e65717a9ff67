import SparseTiling.Code.Print
import SparseTiling.Executor.Binding
import SparseTiling.Library
import SparseTiling.Settings

/-!
# Executors

An executor is a C++ fragment for the body of a caller's function. It walks the
colors of the tiles in increasing order and the tiles of each color, possibly in
parallel, and runs one kernel per loop of the chain inside every tile. With timing,
it adds up iterations and times per loop and writes them to a file.

* `prologue`, `epilogue`: what surrounds a kernel.
* `tileBody`, `colorLoop`: the walk.
* `program`: the fragment.
* `generate`, `generateWith`: everything together, from kernels or from a rule.
* `Emission.wrap`: a function around the fragment.
-/

namespace SparseTiling.Executor

open Code (Expr Stmt Param Signature)

/-! ## Names in the emitted code -/

/-- The size of the current loop inside a tile. -/
def loopSizeVar : String := "tileLoopSize"

/-- The directory of the timing statistics. -/
def timingDir : String := "Execution_output"

def execVar : String := "exec"

def execParam : String := "_exec"

def regionParam : String := "region"

def rankParam : String := "rank"

def tileVar : String := "tile"

def colorCount : String := "nColors"

def tileCount : String := "nTilesPerColor"

def startVar : String := "start"

def endVar : String := "end"

/-- The sampled times of each loop. -/
def timesVar : String := "times"

/-- The iterations of each loop. -/
def itersVar : String := "nIters"

def workerTimesVar : String := "timesWorker"

def workerItersVar : String := "nItersWorker"

/-- The standard headers that timing needs. -/
def timingHeaders : List String := ["vector", "string", "sstream", "fstream", "sys/stat.h"]

/-- The name of an array in its declaration. -/
def sized (name : String) (count : Nat) : String := name ++ "[" ++ toString count ++ "]"

/-- An element of an array. -/
def element (name : String) (position : Expr) : Expr := .index (.ident name) position

/-! ## Kernels in a tile -/

/-- Where times and iterations are added up: each worker has its own arrays in
parallel regions. -/
def accumulators (s : Settings) : String × String :=
  if s.execution.isShared then (workerTimesVar, workerItersVar) else (timesVar, itersVar)

/-- What precedes the kernel of a loop: its local maps, its iterations and their
number. -/
def prologue (s : Settings) (b : Binding) : List Stmt :=
  .comment ("loop " ++ toString b.position ++ ": " ++ b.loopName) ::
    (b.localMaps.map fun (map, name) =>
      .declare "iterations_list&" name (Library.tileGetLocalMap tileVar b.position map)) ++
    [.declare "iterations_list&" b.iterations (Library.tileGetIterations tileVar b.position),
      .assign (.ident loopSizeVar) (Library.tileLoopSize tileVar b.position)] ++
    (if s.timing then [.assign (.ident startVar) Library.timeStamp] else [])

/-- What precedes the kernel at a position; nothing past the last loop. -/
def prologueAt (s : Settings) (bs : List Binding) (position : Nat) : List Stmt :=
  match bs[position]? with
  | some b => prologue s b
  | none => []

/-- What follows the kernel at a position: with timing, its time and iterations. -/
def epilogue (s : Settings) (position : Nat) : List Stmt :=
  if s.timing then
    let (times, iters) := accumulators s
    [.assign (.ident endVar) Library.timeStamp,
      .expr (.method (element times (.int position)) "push_back"
        [.minus (.ident endVar) (.ident startVar)]),
      .addAssign (element iters (.int position)) (.ident loopSizeVar)]
  else []

/-- The kernel of a loop with what surrounds it. -/
def kernelStmts (s : Settings) (kernel : Binding → String) (b : Binding) : List Stmt :=
  .blank :: prologue s b ++ .fragment (kernel b) :: epilogue s b.position

/-- The statements of a tile: tiles that are not there are passed over. -/
def tileBody (s : Settings) (bs : List Binding) (kernel : Binding → String) : List Stmt :=
  [.declare "tile_t*" tileVar (Library.execTileAt execVar "i" "j" regionParam),
    .ifThen (.not (.ident tileVar)) [.continueLoop], .declareBare "int" loopSizeVar] ++
    (if s.timing then [.declareBare "double" startVar, .declareBare "double" endVar] else []) ++
    bs.flatMap (kernelStmts s kernel)

/-! ## The walk over colors and tiles -/

/-- The sums of a worker join those of all. -/
def mergeLoop (count : Nat) : Stmt :=
  .forRange "k" (.int count)
    [.addAssign (element itersVar (.ident "k")) (element workerItersVar (.ident "k")),
      .expr (.method (element timesVar (.ident "k")) "insert"
        [.method (element timesVar (.ident "k")) "end" [],
          .method (element workerTimesVar (.ident "k")) "begin" [],
          .method (element workerTimesVar (.ident "k")) "end" []])]

/-- The tiles of one color on several workers, each with its own sums, which are
merged when the color is done. -/
def timedParallel (count : Nat) (tiles : Stmt) : List Stmt :=
  [.pragma "omp parallel",
    .scope
      [.declare "int" (sized workerItersVar count) (.list [.int 0]),
        .declareBare "std::vector<double>" (sized workerTimesVar count),
        .pragma "omp for schedule(dynamic)", tiles, .pragma "omp critical",
        .scope [mergeLoop count]]]

/-- The tiles of one color. -/
def colorBody (s : Settings) (count : Nat) (tiles : Stmt) : List Stmt :=
  if s.execution.isShared then
    if s.timing then timedParallel count tiles
    else [.pragma "omp parallel for schedule(dynamic)", tiles]
  else [tiles]

/-- Colors run one after another; only tiles of one color run at the same time. -/
def colorLoop (s : Settings) (bs : List Binding) (kernel : Binding → String) : Stmt :=
  .forRange "i" (.ident colorCount)
    (.declare "const int" tileCount (Library.execTilesPerColor execVar "i") ::
      colorBody s bs.length (.forRange "j" (.ident tileCount) (tileBody s bs kernel)))

/-! ## Timing -/

/-- Empty sums, and a directory for the statistics. -/
def timingInit (count : Nat) : List Stmt :=
  [.comment "per loop statistics", .declare "int" (sized itersVar count) (.list [.int 0]),
    .declareBare "std::vector<double>" (sized timesVar count),
    .declare "struct stat" "st" (.list [.int 0]),
    .ifThen
      (.equals (.callName "stat" [.str timingDir, .addressOf (.ident "st")]) (.int (-1)))
      [.expr (.callName "mkdir" [.str timingDir, .int 448])]]

/-- The file of the statistics: one for each chain, process and region. -/
def reportPath (chain : String) : Expr :=
  .stream
    [.ident "stream", .str timingDir, .str "/", .str chain, .str "_rank", .ident rankParam,
      .str "_", .ident "regionName", .str ".txt"]

/-- The line of a loop in the statistics. -/
def reportLine : Expr :=
  .stream
    [.ident "outfile", .str "Loop ", .ident "i", .str ": totIters=",
      element itersVar (.ident "i"), .str ", time=", .ident "tot", .ident "std::endl"]

/-- Write the statistics, anew on every run. -/
def timingReport (chain : String) (count : Nat) : List Stmt :=
  [.declare "std::string" "regionName" (.str "core"),
    .ifThen (.equals (.ident regionParam) (.int 1)) [.assign (.ident "regionName") (.str "exec")],
    .declareBare "std::stringstream" "stream", .expr (reportPath chain),
    .construct "std::ofstream" "outfile" [.method (.ident "stream") "str" []],
    .forRange "i" (.int count)
      [.declare "double" "tot" (.float .zero),
        .forRange "j" (.cast "int" (.method (element timesVar (.ident "i")) "size" []))
          [.addAssign (.ident "tot") (.index (element timesVar (.ident "i")) (.ident "j"))],
        .expr reportLine],
    .expr (.method (.ident "outfile") "close" [])]

/-! ## The fragment -/

/-- **The statements of an executor.** -/
def program (chain : String) (s : Settings) (bs : List Binding) (kernel : Binding → String) :
    List Stmt :=
  (if s.timing then timingInit bs.length ++ [.blank] else []) ++
    [.declare "executor_t*" execVar (.cast "executor_t*" (.ident execParam)),
      .declare "int" colorCount (Library.execNumColors execVar), colorLoop s bs kernel] ++
    (if s.timing then .blank :: timingReport chain bs.length else [])

/-- The headers that the fragment needs. -/
def headers (s : Settings) : List String :=
  Library.headers ++ if s.timing then timingHeaders else []

/-- The parameters of the function around the fragment. -/
def params : List Param :=
  [{ type := "void*", name := execParam }, { type := "tile_region", name := regionParam },
    { type := "int", name := rankParam }]

/-- The parameters as they are written. -/
def paramTexts : List String := params.map fun p => p.type ++ " " ++ p.name

/-! ## Generation -/

/-- A generated executor. -/
structure Emission where
  source : String
  headers : List String
  bindings : List Binding

/-- The inclusion of a header: those of the tiling library are local. -/
def includeHeader (header : String) : Stmt :=
  if header ∈ Library.headers then .includeLocal header else .includeSystem header

/-- A complete function around the fragment, with its headers. -/
def Emission.wrap (e : Emission) (name : String) : String :=
  Code.render
    (e.headers.map includeHeader ++
      [.blank, .function { result := "void", name, params } [.fragment e.source]])

/-- **What has to hold before an executor is built;** gives the bindings. -/
def check (c : Chain) : Except Error (List Binding) := do
  c.ensureConstructed
  c.checkReferences
  return bindings c

/-- The executor with kernels made from the bindings of each loop. -/
def emit (c : Chain) (s : Settings) (bs : List Binding) (kernel : Binding → String) : Emission :=
  { source := Code.render (program c.name s bs kernel), headers := headers s, bindings := bs }

/-- Generate the executor of a chain with kernels made from the bindings of each
loop. -/
def generateWith (c : Chain) (s : Settings) (kernel : Binding → String) :
    Except Error Emission := do
  return emit c s (← check c) kernel

/-- **Generate the executor of a chain,** with one kernel per loop. -/
def generate (c : Chain) (s : Settings) (kernels : List String) : Except Error Emission := do
  let bs ← check c
  if kernels.length = bs.length then
    return emit c s bs fun b => kernels[b.position]?.getD ""
  else throw (.kernelCount c.name bs.length kernels.length)

end SparseTiling.Executor
