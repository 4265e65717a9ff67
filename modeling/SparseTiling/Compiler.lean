import SparseTiling.Settings

/-!
# Compilation of emitted code

The options with which inspectors and executors are compiled, and where the tiling
library is found.
-/

namespace SparseTiling

/-- The supported families of compilers. -/
inductive Compiler
  | gnu
  | intel
  deriving DecidableEq

namespace Compiler

def spelling : Compiler → String
  | .gnu => "gnu"
  | .intel => "intel"

/-- The compiler with exactly this spelling. -/
def ofSpelling? (text : String) : Option Compiler :=
  [gnu, intel].find? fun c => c.spelling = text

/-- The options for a compiler under some settings. -/
def options (c : Compiler) (s : Settings) : List String :=
  ["-std=c++11"] ++ (if s.coordinates.isSome then ["-DSLOPE_VTK"] else []) ++
    ["-O3", "-fopenmp"] ++
    match c with
    | .gnu => []
    | .intel =>
      (if s.execution = .threads then ["-par-affinity=scatter,verbose"] else []) ++
        ["-xHost", "-ip"]

/-- The name of the shared library. -/
def libraryName : String := "slope"

/-- The headers of the library in its source tree. -/
def includeDir : String := "sparsetiling/include"

/-- The shared library in its source tree. -/
def libraryDir : String := "lib"

end Compiler

/-- The version of this generator. -/
def version : String := "0.1.0"

end SparseTiling
