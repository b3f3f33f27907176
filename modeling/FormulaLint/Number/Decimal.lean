import FormulaLint.Number.Double

/-!
# Decimal texts

A decimal text has digits, a point, and an exponent after the letter e; each part may be missing.
Read as a whole it stands for its digits, point left out, times a power of ten.
-/

namespace FormulaLint

/-- The number {lit}`digits * 10 ^ exponent`. -/
structure Decimal where
  digits : Nat
  exponent : Int
deriving DecidableEq, Repr

/-- The natural number that a run of digits stands for. -/
def natOfDigits (cs : List Char) : Nat :=
  cs.foldl (fun n c => n * 10 + (c.toNat - '0'.toNat)) 0

/-- The whole number that digits behind an optional sign stand for. -/
def intOfDigits : List Char → Int
  | '-' :: rest => -(natOfDigits rest : Int)
  | '+' :: rest => natOfDigits rest
  | rest => natOfDigits rest

namespace Decimal

/-- Read a decimal text without a sign in front. -/
def ofChars (cs : List Char) : Decimal :=
  let mark := fun c => c == 'e' || c == 'E'
  let mantissa := cs.takeWhile (fun c => !mark c)
  let whole := mantissa.takeWhile (· != '.')
  let fraction := (mantissa.dropWhile (· != '.')).drop 1
  let power := (cs.dropWhile (fun c => !mark c)).drop 1
  ⟨natOfDigits (whole ++ fraction), intOfDigits power - fraction.length⟩

/-- The nearest double precision number. -/
def toDouble (d : Decimal) (negative : Bool) : Double :=
  Double.ofDecimal negative d.digits d.exponent

end Decimal

end FormulaLint
