import SparseTiling.Decimal.Binary64
import SparseTiling.Error
import SparseTiling.Name

/-!
# Coordinate fields

The coordinates of the elements of a set, with which a tiled mesh can be shown.
Only the number of components is checked here; whether the set belongs to a chain
is checked when code is generated for it.
-/

namespace SparseTiling

/-- The number of components of a coordinate. -/
inductive Dimension
  | one
  | two
  | three
  deriving DecidableEq

namespace Dimension

def arity : Dimension → Nat
  | .one => 1
  | .two => 2
  | .three => 3

def ofArity (n : Int) : Except Error Dimension :=
  if n = 1 then .ok .one
  else if n = 2 then .ok .two
  else if n = 3 then .ok .three
  else .error (.coordinateArity n)

end Dimension

/-- The coordinates of the elements of a set, one after another. -/
structure CoordinateField where
  set : String
  values : List Binary64
  dimension : Dimension
  deriving DecidableEq

namespace CoordinateField

/-- The field of the set with a raw name. -/
def make (set : String) (values : List Binary64) (arity : Int) : Except Error CoordinateField := do
  return { set := Name.bare set, values, dimension := ← Dimension.ofArity arity }

/-- The number of elements with coordinates. -/
def size (f : CoordinateField) : Nat := f.values.length / f.dimension.arity

/-- The constant for the dimension in emitted code. -/
def constant (f : CoordinateField) : String := "DIM" ++ toString f.dimension.arity

end CoordinateField

end SparseTiling
