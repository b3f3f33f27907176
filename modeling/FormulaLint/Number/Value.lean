import FormulaLint.Number.Shortest
import FormulaLint.Number.Decimal

/-!
# Number values and their texts

The value of a number literal is a whole number of any size or a double precision number.  Whole
numbers print their digits.  Other numbers print the fewest digits that read back: positionally,
with at least one digit behind the point, when the point falls between four places in front of the
first digit and sixteen behind it, and with an exponent of at least two digits otherwise.  A message
does not write whole numbers of more than 4300 digits.
-/

namespace FormulaLint

/-- The value of a number literal. -/
inductive Number where
  | whole (value : Int)
  | double (value : Double)
deriving DecidableEq, Repr

/-- The decimal digits of a natural number. -/
def natDigits (n : Nat) : List Char :=
  Nat.toDigits 10 n

/-- The decimal text of a whole number. -/
def intText (n : Int) : String :=
  String.ofList (if n < 0 then '-' :: natDigits n.natAbs else natDigits n.natAbs)

/-- Digits without the zeros at their end. -/
def trimZeros (cs : List Char) : List Char :=
  (cs.reverse.dropWhile (· == '0')).reverse

/-- Lay out the number whose significant digits are {lit}`digits` and whose point stands
{lit}`place` digits behind the start of them. -/
def layoutDigits (digits : List Char) (place : Int) : List Char :=
  if place ≤ -4 ∨ 16 < place then
    let power := place - 1
    let powerDigits := natDigits power.natAbs
    let mantissa := match digits with
      | [] => []
      | [d] => [d]
      | d :: rest => d :: '.' :: rest
    mantissa ++ 'e' :: (if power < 0 then '-' else '+') ::
      (List.replicate (2 - powerDigits.length) '0' ++ powerDigits)
  else if place ≤ 0 then
    '0' :: '.' :: (List.replicate (-place).toNat '0' ++ digits)
  else
    let whole := digits.take place.toNat
    let fraction := digits.drop place.toNat
    whole ++ List.replicate (place.toNat - digits.length) '0' ++
      '.' :: (if fraction.isEmpty then ['0'] else fraction)

/-- The text of a double precision number. -/
def Double.text (x : Double) : String :=
  if x.isNaN then "nan"
  else
    let sign := if x.negative then ['-'] else []
    if x.isInfinite then String.ofList (sign ++ ['i', 'n', 'f'])
    else
      let (digits, exponent) := x.shortest
      let all := natDigits digits
      let place := exponent + all.length
      let body :=
        if digits = 0 then ['0', '.', '0'] else layoutDigits (trimZeros all) place
      String.ofList (sign ++ body)

/-- The text of a number value. -/
def Number.text : Number → String
  | .whole n => intText n
  | .double x => x.text

/-- Whether a number is whole and has too many digits to be written in a message. -/
def Number.isOverlong : Number → Bool
  | .whole n => 4300 < (natDigits n.natAbs).length
  | .double _ => false

/-- The wording for a number that has too many digits to be written. -/
def overlongWording : String :=
  "Exceeds the limit (4300 digits) for integer string conversion; " ++
    "use sys.set_int_max_str_digits() to increase the limit"

end FormulaLint
