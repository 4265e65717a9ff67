import SparseTiling.Chain
import SparseTiling.Settings

/-!
# Sessions

A chain together with the settings under construction for it.
-/

namespace SparseTiling

/-- A chain and its settings under construction. -/
structure Session where
  chain : Chain
  draft : Draft := {}
  deriving DecidableEq

namespace Session

/-- A session for the empty chain with a raw name. -/
def new (name : String) (draft : Draft := {}) : Session := { chain := .new name, draft }

def settings (s : Session) : Settings := s.draft.settings

def warnings (s : Session) : List Warning := s.draft.warnings

/-- Change the chain, if that is accepted. -/
def onChain (s : Session) (f : Chain → Except Error Chain) : Except Error Session := do
  return { s with chain := ← f s.chain }

def declareSets (s : Session) (sets : List MeshSet) : Except Error Session :=
  s.onChain (·.declareSets sets)

def declareMaps (s : Session) (maps : List MeshMap) : Except Error Session :=
  s.onChain (·.declareMaps maps)

def declareLoops (s : Session) (loops : List Loop) : Except Error Session :=
  s.onChain (·.declareLoops loops)

def declarePartitionings (s : Session) (partitionings : List Partitioning) : Session :=
  { s with chain := s.chain.declarePartitionings partitionings }

def setTileSize (s : Session) (size : UInt32) : Session :=
  { s with chain := { s.chain with tileSize := size } }

def setRank (s : Session) (rank : UInt32) : Session :=
  { s with chain := { s.chain with rank } }

/-- The chain with the seed that the hints choose, if they choose one. -/
def chooseSeed (c : Chain) : Option Int64 → Except Error Chain
  | none => .ok c
  | some seed => c.chooseSeed seed.toInt

/-- Apply hints, all or none of them: the seed loop to the chain, the others to
the settings. The seed is checked first. -/
def configure (s : Session) (h : Hints) : Except Error Session := do
  let chain ← chooseSeed s.chain h.seedLoop
  let draft ← s.draft.configure h
  return { chain, draft }

def setDebug (s : Session) (mode : DebugMode) (field : Option CoordinateField) : Session :=
  { s with draft := s.draft.setDebug mode field }

def readDebug (s : Session) (text : String) (field : Option CoordinateField) : Session :=
  { s with draft := s.draft.readDebug text field }

def setTiming (s : Session) (on : Bool) : Session := { s with draft := s.draft.setTiming on }

def setMeshMaps (s : Session) (maps : List MeshMap) : Session :=
  { s with draft := s.draft.setMeshMaps maps }

def readExecution (s : Session) (text : String) : Session :=
  { s with draft := s.draft.readExecution text }

end Session

end SparseTiling
