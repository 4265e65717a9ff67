import SparseTiling.Decimal.Read
import SparseTiling.Json.Reader

/-!
# Numbers in JSON

A numeral has a sign, whole digits without a leading zero, and may have a fraction
and an exponent. One without them is a whole number if it fits in 64 bits, and
every other one is a double.

A double is made from a **significand** of 64 bits, which takes digits while they
fit, and one multiplication or division by a power of ten. The result can differ in
its last bit from the double nearest to the numeral.

* `Numeral`, `Reader.numeral`: the parts of a numeral, and how they are read.
* `Numeral.number?`: its number, if it has one.
-/

namespace SparseTiling.Json

/-- The parts of a numeral. -/
structure Numeral where
  negative : Bool
  /-- The digits before the point. -/
  whole : List Char
  /-- The digits after the point; none if there is no point. -/
  fraction : List Char
  /-- The sign and the digits of the exponent. -/
  exponent : Option (Bool × List Char)
  deriving DecidableEq

/-- A number: whole, or a double. -/
inductive Number
  | int (value : Int)
  | double (value : Binary64)
  deriving DecidableEq

namespace Reader

/-- One digit or more. If the text ends instead, the fault is `cut`. -/
def digits (cut : Fault) : Reader (List Char) := do
  match ← takeWhile Char.isDigit with
  | [] =>
    match ← peek? with
    | none => fail cut
    | some _ => fail .malformed
  | ds => return ds

/-- The fraction of a numeral, if there is one. -/
def fraction (cut : Fault) : Reader (List Char) := do
  match ← peek? with
  | some '.' =>
    let _ ← next?
    digits cut
  | _ => return []

/-- The sign of an exponent, if there is one. -/
def exponentSign : Reader Bool := do
  match ← peek? with
  | some '-' =>
    let _ ← next?
    return true
  | some '+' =>
    let _ ← next?
    return false
  | _ => return false

/-- The exponent of a numeral, if there is one. -/
def exponent (cut : Fault) : Reader (Option (Bool × List Char)) := do
  match ← peek? with
  | some 'e' | some 'E' =>
    let _ ← next?
    let negative ← exponentSign
    return some (negative, ← digits cut)
  | _ => return none

/-- The whole digits of a numeral whose first character has been read. -/
def whole (cut : Fault) (first : Char) : Reader (List Char) := do
  if first = '-' then digits cut else return first :: (← takeWhile Char.isDigit)

/-- **A numeral** whose first character, a digit or a minus, has been read. If the
text ends inside it, the fault is `cut`. -/
def numeral (cut : Fault) (first : Char) : Reader Numeral := do
  match ← whole cut first with
  | '0' :: _ :: _ => fail .malformed
  | ds =>
    return {
      negative := first = '-', whole := ds, fraction := ← fraction cut, exponent := ← exponent cut }

end Reader

/-- One more than the greatest number of 64 bits. -/
def wordSize : Nat := 0x10000000000000000

/-- Take digits into a significand while it fits in 64 bits. Gives the significand
and the number of digits taken. -/
def takeDigits (significand : Nat) : List Char → Nat × Nat
  | [] => (significand, 0)
  | d :: ds =>
    let next := 10 * significand + (d.toNat - '0'.toNat)
    if next < wordSize then
      let (result, taken) := takeDigits next ds
      (result, taken + 1)
    else (significand, 0)

/-- The greatest exponent for which the power of ten is a double. -/
def greatestPower : Nat := 308

/-- A double times a power of ten, in one multiplication or division where that is
possible. There is none if the result is too large. -/
def scale (x : Binary64) (e : Int) : Option Binary64 :=
  if 0 ≤ e then
    if e ≤ greatestPower then
      let y := x.mul (.ofDecimal 1 e)
      if y.isInfinite then none else some y
    else if x.isZero then some x
    else none
  else if -greatestPower ≤ e then some (x.div (.ofDecimal 1 (-e)))
  else if x.isZero then some x
  else scale (x.div (.ofDecimal 1 greatestPower)) (e + greatestPower)
termination_by (-e).toNat
decreasing_by
  simp only [greatestPower] at *
  omega

namespace Numeral

/-- The value of the exponent. -/
def power (n : Numeral) : Int :=
  match n.exponent with
  | none => 0
  | some (true, ds) => -(Binary64.digitsValue ds : Int)
  | some (false, ds) => Binary64.digitsValue ds

/-- The double of a numeral, if it is not too large. -/
def double? (n : Numeral) : Option Binary64 :=
  let (whole, taken) := takeDigits 0 n.whole
  let (significand, places) := takeDigits whole n.fraction
  let dropped : Int := n.whole.length - taken
  let size := scale (.ofNat significand) (dropped - places + n.power)
  if n.negative then size.map Binary64.neg else size

/-- The whole number of a numeral that has neither fraction nor exponent and fits in
64 bits, with a sign if it is negative. Negative zero is not a whole number. -/
def int? (n : Numeral) : Option Int :=
  let size := Binary64.digitsValue n.whole
  if n.fraction ≠ [] ∨ n.exponent ≠ none then none
  else if n.negative then if 0 < size ∧ 2 * size ≤ wordSize then some (-size) else none
  else if size < wordSize then some size
  else none

/-- The number of a numeral, if it has one. -/
def number? (n : Numeral) : Option Number :=
  match n.int? with
  | some value => some (.int value)
  | none => n.double?.map .double

end Numeral

/-- A number whose first character has been read. -/
def Reader.number (first : Char) : Reader Number := do
  match (← numeral .incomplete first).number? with
  | some value => return value
  | none => fail .malformed

end SparseTiling.Json
