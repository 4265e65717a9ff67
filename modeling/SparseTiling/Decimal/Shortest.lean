import SparseTiling.Decimal.Binary64

/-!
# Shortest decimals

The shortest decimal that rounds to a given double, and of those the nearest to
it. Each length is tried in turn: on the grid of decimals of that length only
the two neighbours of the number can be right.

* `Interval`: the reals that round to a double, in exact arithmetic.
* `shortest`: the digits and the power of ten.
-/

namespace SparseTiling.Binary64

/-- The number `digits * 10 ^ exponent`. -/
structure Decimal where
  digits : Nat
  exponent : Int
  deriving DecidableEq

/-- Where a number halfway between two candidates goes. -/
inductive Tie
  | up
  | even
  deriving DecidableEq

/-- The reals that round to a double: from `low * num / den` to
`high * num / den`, the ends included when `closed`. -/
structure Interval where
  low : Nat
  high : Nat
  num : Nat
  den : Nat
  closed : Bool

/-- The interval of a finite number that is not zero. The gap below a power of
two is half the gap above it. -/
def interval (x : Binary64) : Interval :=
  let (m, q) := x.magnitude
  let (num, den) := powerRatio (q - 2)
  { low := if x.fraction = 0 ∧ 1 < x.exponentField then 4 * m - 1 else 4 * m - 2
    high := 4 * m + 2
    num
    den
    closed := m % 2 == 0 }

/-- A power of ten as a ratio. -/
def tenRatio (e : Int) : Nat × Nat :=
  if 0 ≤ e then (Nat.pow 10 e.toNat, 1) else (1, Nat.pow 10 (-e).toNat)

/-- Whether a decimal lies in an interval. -/
def Interval.contains (i : Interval) (d : Decimal) : Bool :=
  let (n, k) := tenRatio d.exponent
  let value := d.digits * n * i.den
  let low := i.low * i.num * k
  let high := i.high * i.num * k
  if i.closed then low ≤ value && value ≤ high else low < value && value < high

/-- The exponent of the leading decimal digit of `num / den`. -/
def leadingExponent (num den : Nat) : Int :=
  if den ≤ num then ((Nat.toDigits 10 (num / den)).length : Int) - 1
  else -((Nat.toDigits 10 ((den - 1) / num)).length : Int)

/-- The candidate with `count` digits, if one of the two neighbours of the number
on that grid rounds to it. -/
def candidate (tie : Tie) (x : Binary64) (count : Nat) : Option Decimal :=
  let (num, den) := x.ratio
  let exponent := leadingExponent num den - (count - 1 : Nat)
  let (n, k) := tenRatio exponent
  let below := num * k / (den * n)
  let rest := num * k % (den * n)
  let lower : Decimal := ⟨below, exponent⟩
  let upper : Decimal := ⟨below + 1, exponent⟩
  match (x.interval).contains lower, (x.interval).contains upper with
  | true, true =>
    if 2 * rest < den * n then some lower
    else if den * n < 2 * rest then some upper
    else match tie with
      | .up => some upper
      | .even => some (if below % 2 = 0 then lower else upper)
  | true, false => some lower
  | false, true => some upper
  | false, false => none

/-- The decimal without the zeros at its end. -/
def Decimal.trim (d : Decimal) : Decimal :=
  if h : d.digits ≠ 0 ∧ d.digits % 10 = 0 then
    Decimal.trim ⟨d.digits / 10, d.exponent + 1⟩
  else d
termination_by d.digits
decreasing_by omega

/-- **The shortest decimal** of a finite number that is not zero, without its
sign. Seventeen digits always suffice. -/
def shortest (tie : Tie) (x : Binary64) : Decimal :=
  match (List.range 17).findSome? fun k => candidate tie x (k + 1) with
  | some d => d.trim
  | none => ⟨0, 0⟩

end SparseTiling.Binary64
