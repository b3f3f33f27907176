/-!
# Double precision numbers

Numbers with a fraction are kept as the 64 bits of a double precision number.  A quotient of
natural numbers is rounded to the nearest such number in exact arithmetic; a tie goes to the
even neighbour.
-/

namespace FormulaLint

/-- A double precision number, given by its 64 bits. -/
structure Double where
  bits : UInt64
deriving DecidableEq, Repr

/-- The whole number nearest to a quotient; halfway between two it is the even one. -/
def roundHalfEven (num den : Nat) : Nat :=
  let quotient := num / den
  let twice := 2 * (num % den)
  if twice < den then quotient
  else if den < twice then quotient + 1
  else if quotient % 2 = 0 then quotient else quotient + 1

namespace Double

/-- Assemble a number from its sign, exponent field and fraction field. -/
def ofFields (negative : Bool) (exponentField fraction : Nat) : Double :=
  ⟨((if negative then Nat.pow 2 63 else 0) + exponentField * Nat.pow 2 52 + fraction).toUInt64⟩

/-- Whether the sign bit is set. -/
def negative (x : Double) : Bool :=
  Nat.pow 2 63 ≤ x.bits.toNat

/-- The exponent field. -/
def exponentField (x : Double) : Nat :=
  x.bits.toNat / Nat.pow 2 52 % Nat.pow 2 11

/-- The fraction field. -/
def fraction (x : Double) : Nat :=
  x.bits.toNat % Nat.pow 2 52

/-- Positive infinity, or negative infinity. -/
def infinity (negative : Bool) : Double :=
  ofFields negative 2047 0

/-- The quiet number that is not a number. -/
def notANumber : Double :=
  ofFields false 2047 (Nat.pow 2 51)

/-- Whether the number is an infinity. -/
def isInfinite (x : Double) : Bool :=
  x.exponentField = 2047 && x.fraction = 0

/-- Whether the number is not a number. -/
def isNaN (x : Double) : Bool :=
  x.exponentField = 2047 && x.fraction ≠ 0

/-- The significand {lit}`m` and exponent {lit}`q` of a finite number {lit}`m * 2 ^ q`, sign left
aside. -/
def magnitude (x : Double) : Nat × Int :=
  if x.exponentField = 0 then (x.fraction, -1074)
  else (Nat.pow 2 52 + x.fraction, (x.exponentField : Int) - 1075)

/-- The quotient {lit}`num / den`, divided by two to the given power and rounded. -/
def scaled (num den : Nat) (power : Int) : Nat :=
  if 0 ≤ power then roundHalfEven num (den * Nat.pow 2 power.toNat)
  else roundHalfEven (num * Nat.pow 2 (-power).toNat) den

/-- The power of two to which a quotient is rounded: its significand then has 53 bits, or the
power is the least one. -/
def grain (num den : Nat) : Int :=
  let estimate : Int := (Nat.log2 num : Int) - Nat.log2 den - 53
  let wide : Bool :=
    if 0 ≤ estimate then den * Nat.pow 2 (53 + estimate.toNat) ≤ num
    else den * Nat.pow 2 53 ≤ num * Nat.pow 2 (-estimate).toNat
  max (-1074) (if wide then estimate + 1 else estimate)

/-- The double precision number nearest to {lit}`num / den`. -/
def ofRatio (negative : Bool) (num den : Nat) : Double :=
  if num = 0 ∨ den = 0 then ofFields negative 0 0
  else
    let power := grain num den
    let significand := scaled num den power
    if significand < Nat.pow 2 52 then ofFields negative 0 significand
    else
      let carried := significand = Nat.pow 2 53
      let field := (if carried then power + 1 else power) + 1075
      if 2047 ≤ field then infinity negative
      else ofFields negative field.toNat (if carried then 0 else significand - Nat.pow 2 52)

/-- The double precision number nearest to {lit}`digits * 10 ^ exponent`.  Exponents beyond the
range are answered without computing the power. -/
def ofDecimal (negative : Bool) (digits : Nat) (exponent : Int) : Double :=
  let places : Int := (Nat.toDigits 10 digits).length
  if digits = 0 then ofFields negative 0 0
  else if 310 < places + exponent then infinity negative
  else if places + exponent < -330 then ofFields negative 0 0
  else if 0 ≤ exponent then ofRatio negative (digits * Nat.pow 10 exponent.toNat) 1
  else ofRatio negative digits (Nat.pow 10 (-exponent).toNat)

/-- A finite number as a quotient, sign left aside. -/
def ratio (x : Double) : Nat × Nat :=
  let (significand, power) := x.magnitude
  if 0 ≤ power then (significand * Nat.pow 2 power.toNat, 1)
  else (significand, Nat.pow 2 (-power).toNat)

/-- The double precision number nearest to a natural number. -/
def ofNat (n : Nat) : Double :=
  ofRatio false n 1

/-- The numerator of a finite number with its sign. -/
def signedNumerator (x : Double) : Int :=
  if x.negative then -(x.ratio.1 : Int) else x.ratio.1

/-- The nearest number to the sum of two numbers. -/
def add (x y : Double) : Double :=
  if x.isNaN ∨ y.isNaN then notANumber
  else if x.isInfinite then
    if y.isInfinite ∧ x.negative ≠ y.negative then notANumber else x
  else if y.isInfinite then y
  else
    let num := x.signedNumerator * y.ratio.2 + y.signedNumerator * x.ratio.2
    let negative := if num = 0 then x.negative && y.negative else num < 0
    ofRatio negative num.natAbs (x.ratio.2 * y.ratio.2)

/-- The nearest number to the product of two numbers. -/
def mul (x y : Double) : Double :=
  let negative := x.negative != y.negative
  let isZero := fun (z : Double) => z.exponentField = 0 ∧ z.fraction = 0
  if x.isNaN ∨ y.isNaN then notANumber
  else if x.isInfinite ∨ y.isInfinite then
    if isZero x ∨ isZero y then notANumber else infinity negative
  else ofRatio negative (x.ratio.1 * y.ratio.1) (x.ratio.2 * y.ratio.2)

/-- The number with the opposite sign. -/
def negate (x : Double) : Double :=
  ofFields (!x.negative) x.exponentField x.fraction

end Double

end FormulaLint
