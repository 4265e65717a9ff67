/-!
# Double precision numbers

Numbers of the 64-bit binary format, held as their bits, so that equality is
decidable and every operation is exact arithmetic followed by one rounding.

* `Binary64.magnitude`: a finite number without its sign is `m * 2 ^ q`.
* `Binary64.ofRatio`: the number nearest to a quotient, ties to even.
* `Binary64.mul`, `Binary64.div`: product and quotient, rounded once.
-/

namespace SparseTiling

/-- A number of the 64-bit binary format: sign, exponent and fraction bits. -/
structure Binary64 where
  bits : UInt64
  deriving DecidableEq

namespace Binary64

/-- The weight of the sign bit. -/
def signWeight : Nat := 0x8000000000000000

/-- The weight of the last exponent bit: one more than the greatest fraction. -/
def hiddenBit : Nat := 0x10000000000000

/-- The sign bit. -/
def isNegative (x : Binary64) : Bool := x.bits.toNat / signWeight == 1

/-- The eleven exponent bits. -/
def exponentField (x : Binary64) : Nat := x.bits.toNat / hiddenBit % 2048

/-- The fifty-two fraction bits. -/
def fraction (x : Binary64) : Nat := x.bits.toNat % hiddenBit

def isNaN (x : Binary64) : Bool := x.exponentField == 2047 && x.fraction != 0

def isInfinite (x : Binary64) : Bool := x.exponentField == 2047 && x.fraction == 0

def isZero (x : Binary64) : Bool := x.exponentField == 0 && x.fraction == 0

def isFinite (x : Binary64) : Bool := x.exponentField != 2047

/-- The significand and exponent of a finite number: its absolute value is
`m * 2 ^ q`. -/
def magnitude (x : Binary64) : Nat × Int :=
  if x.exponentField = 0 then (x.fraction, -1074)
  else (x.fraction + hiddenBit, (x.exponentField : Int) - 1075)

/-- The number with these bits. -/
def ofBits (n : Nat) : Binary64 := ⟨UInt64.ofNat n⟩

def zero : Binary64 := ofBits 0

def infinity : Binary64 := ofBits (2047 * hiddenBit)

def nan : Binary64 := ofBits (2047 * hiddenBit + hiddenBit / 2)

/-- The number with the other sign. -/
def neg (x : Binary64) : Binary64 :=
  if x.isNegative then ofBits (x.bits.toNat - signWeight) else ofBits (x.bits.toNat + signWeight)

/-- A power of two as a ratio. -/
def powerRatio (q : Int) : Nat × Nat :=
  if 0 ≤ q then (Nat.pow 2 q.toNat, 1) else (1, Nat.pow 2 (-q).toNat)

/-- The quotient rounded to the nearest whole number, ties to even. -/
def roundDiv (num den : Nat) : Nat :=
  let q := num / den
  let r := 2 * (num % den)
  if r < den then q else if den < r then q + 1 else q + q % 2

/-- The positive number with significand `m` below `2 ^ 53` (or equal to it, a
carry of rounding) and exponent `q`. -/
def pack (m : Nat) (q : Int) : Binary64 :=
  let exponent := if m < hiddenBit then 0 else (q + 1075).toNat
  if 2047 ≤ exponent + (if 2 * hiddenBit ≤ m then 1 else 0) then infinity
  else if m < hiddenBit then ofBits m
  else ofBits (exponent * hiddenBit + (m - hiddenBit))

/-- The number nearest to `num / den`, ties to even. The exponent is chosen so
that the significand has 53 bits, unless the number is too small for that. -/
def ofRatio (num den : Nat) : Binary64 :=
  if num = 0 then zero
  else
    let guess : Int := (num.log2 : Int) - (den.log2 : Int) - 53
    let scaled (q : Int) : Nat × Nat :=
      let p := powerRatio q
      (num * p.2, den * p.1)
    let low := max guess (-1074)
    let s := scaled low
    let q := if 2 * hiddenBit ≤ s.1 / s.2 then low + 1 else low
    let t := scaled q
    pack (roundDiv t.1 t.2) q

/-- The number nearest to a whole number. -/
def ofNat (n : Nat) : Binary64 := ofRatio n 1

/-- The number nearest to `n * 10 ^ e`. -/
def ofDecimal (n : Nat) (e : Int) : Binary64 :=
  if 0 ≤ e then ofRatio (n * Nat.pow 10 e.toNat) 1 else ofRatio n (Nat.pow 10 (-e).toNat)

/-- The absolute value of a finite number as a ratio. -/
def ratio (x : Binary64) : Nat × Nat :=
  let p := powerRatio x.magnitude.2
  (x.magnitude.1 * p.1, p.2)

/-- The product of two numbers that are finite and not negative. -/
def mul (x y : Binary64) : Binary64 :=
  ofRatio (x.ratio.1 * y.ratio.1) (x.ratio.2 * y.ratio.2)

/-- The quotient of two numbers that are finite and not negative, the second
not zero. -/
def div (x y : Binary64) : Binary64 :=
  ofRatio (x.ratio.1 * y.ratio.2) (x.ratio.2 * y.ratio.1)

end Binary64

end SparseTiling
