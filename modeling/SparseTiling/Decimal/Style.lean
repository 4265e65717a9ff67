import SparseTiling.Decimal.Shortest

/-!
# Writing doubles

How the shortest decimal of a double is written down: positionally, with at
least one place after the point, for exponents in a given range, and with an
exponent outside it.

* `Style`: the decisions of a written form.
* `Style.write`: the text of a double.
-/

namespace SparseTiling.Binary64

/-- The decisions of a written form. -/
structure Style where
  /-- The least exponent of a leading digit that is written positionally. -/
  least : Int
  /-- The greatest exponent of a leading digit that is written positionally. -/
  greatest : Int
  /-- Whether a positive exponent carries its sign. -/
  plus : Bool
  /-- Where a number halfway between two shortest decimals goes. -/
  tie : Tie

/-- The digits with a point after the first `count` of them, filled with zeros;
at least one place follows the point. -/
def placePoint (digits : List Char) (count : Nat) : List Char :=
  let whole := digits.take count ++ List.replicate (count - digits.length) '0'
  let places := digits.drop count
  whole ++ '.' :: (if places.isEmpty then ['0'] else places)

/-- The text of a decimal. -/
def Style.writeDecimal (style : Style) (d : Decimal) : List Char :=
  let digits := Nat.toDigits 10 d.digits
  let leading := d.exponent + digits.length - 1
  if style.least ≤ leading ∧ leading ≤ style.greatest then
    if 0 ≤ leading then placePoint digits (leading.toNat + 1)
    else placePoint ('0' :: List.replicate ((-leading).toNat - 1) '0' ++ digits) 1
  else
    let mantissa := match digits with
      | first :: rest@(_ :: _) => first :: '.' :: rest
      | short => short
    let sign := if leading < 0 then ['-'] else if style.plus then ['+'] else []
    mantissa ++ 'e' :: sign ++ Nat.toDigits 10 leading.natAbs

/-- The text of a double. -/
def Style.write (style : Style) (x : Binary64) : String :=
  if x.isNaN then "NaN"
  else
    let sign := if x.isNegative then "-" else ""
    if x.isInfinite then sign ++ "inf"
    else if x.isZero then sign ++ "0.0"
    else sign ++ String.ofList (style.writeDecimal (x.shortest style.tie))

end SparseTiling.Binary64
