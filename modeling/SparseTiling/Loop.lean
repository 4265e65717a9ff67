import SparseTiling.Loop.Access

/-!
# Loops

A parallel loop runs a kernel over all elements of its iteration set. The same
kernel may occur several times in a chain, so the names that generated code gives
to a loop carry its position.
-/

namespace SparseTiling

/-- A parallel loop. -/
structure Loop where
  name : String
  /-- The iteration set. -/
  set : String
  /-- The accesses, in the order of the kernel's arguments. -/
  descriptors : List Descriptor
  deriving DecidableEq

namespace Loop

/-- The loop under bare names. -/
def bare (l : Loop) : Loop :=
  { name := Name.bare l.name, set := Name.bare l.set, descriptors := l.descriptors.map (·.bare) }

/-- The maps of the loop, each once, in the order of their first use. -/
def indirectMaps (l : Loop) : List String :=
  (l.descriptors.filterMap (·.map.mapName?)).foldl
    (fun maps name => if name ∈ maps then maps else maps ++ [name]) []

/-- The name under which the tiling library knows the loop. -/
def runtimeName (l : Loop) (position : Nat) : String :=
  l.name ++ "_Loop_" ++ toString position

/-- The variable that holds the loop's descriptors. -/
def descriptorsName (l : Loop) (position : Nat) : String :=
  l.name ++ "_Desc_" ++ toString position

end Loop

end SparseTiling
