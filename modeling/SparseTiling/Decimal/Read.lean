import SparseTiling.Decimal.Binary64

/-!
# Reading decimals

The double nearest to a decimal text: an optional sign, digits with an optional
point, an optional exponent; or one of the words for what is not finite.
-/

namespace SparseTiling.Binary64

/-- The number that digits spell, the most significant first. -/
def digitsValue (cs : List Char) : Nat :=
  cs.foldl (fun n c => 10 * n + (c.toNat - '0'.toNat)) 0

/-- The double nearest to `n * 10 ^ e`. Exponents far out of range are settled
before any power is taken. -/
def nearest (n : Nat) (e : Int) : Binary64 :=
  let leading := e + (Nat.toDigits 10 n).length - 1
  if n = 0 then zero
  else if 310 < leading then infinity
  else if leading < -330 then zero
  else ofDecimal n e

/-- A whole number with an optional sign. -/
def readExponent? : List Char → Option Int
  | '-' :: cs => (unsigned? cs).map (- ·)
  | '+' :: cs => unsigned? cs
  | cs => unsigned? cs
where
  unsigned? (cs : List Char) : Option Int :=
    if cs ≠ [] ∧ cs.all Char.isDigit then some (digitsValue cs : Int) else none

/-- A decimal without a sign. -/
def readUnsigned? (cs : List Char) : Option Binary64 :=
  let lower := cs.map Char.toLower
  if lower = "inf".toList ∨ lower = "infinity".toList then some infinity
  else if lower = "nan".toList then some nan
  else
    let whole := cs.takeWhile Char.isDigit
    let rest := cs.dropWhile Char.isDigit
    let places := match rest with
      | '.' :: more => more.takeWhile Char.isDigit
      | _ => []
    let tail := match rest with
      | '.' :: more => more.dropWhile Char.isDigit
      | other => other
    if whole = [] ∧ places = [] then none
    else
      let number (e : Int) := nearest (digitsValue (whole ++ places)) (e - places.length)
      match tail with
      | [] => some (number 0)
      | c :: more =>
        if c = 'e' ∨ c = 'E' then (readExponent? more).map number else none

/-- The double nearest to a decimal text, if it is one. -/
def read? (text : String) : Option Binary64 :=
  match text.toList with
  | '-' :: cs => (readUnsigned? cs).map neg
  | '+' :: cs => readUnsigned? cs
  | cs => readUnsigned? cs

end SparseTiling.Binary64
