import FormulaLint.Number.Double

/-!
# The fewest digits that read back

A double precision number is written with the fewest decimal digits that read back as the same
number.  For one digit, two digits and so on up to seventeen, the two neighbours of the number on
the decimal grid of that width are tried; the nearer one that reads back is taken, and a tie goes
to the even one.
-/

namespace FormulaLint

namespace Double

/-- The number of decimal digits in front of the point of {lit}`num / den`; zero or negative when
the quotient is below one, counting the zeros behind the point. -/
def pointPlace (num den : Nat) : Int :=
  let digits : Int := (Nat.toDigits 10 num).length - (Nat.toDigits 10 den).length
  let reached : Bool :=
    if 0 ≤ digits then den * Nat.pow 10 digits.toNat ≤ num
    else den ≤ num * Nat.pow 10 (-digits).toNat
  if reached then digits + 1 else digits

/-- The neighbours of {lit}`num / den` on the grid of multiples of {lit}`10 ^ unit`, the nearer one
first. -/
def gridNeighbours (num den : Nat) (unit : Int) : List Nat :=
  let (n, d) :=
    if 0 ≤ unit then (num, den * Nat.pow 10 unit.toNat) else (num * Nat.pow 10 (-unit).toNat, den)
  let below := n / d
  if roundHalfEven n d = below then [below, below + 1] else [below + 1, below]

/-- The first width, starting from {lit}`width`, at which a neighbour reads back. -/
def searchDigits (x : Double) (num den : Nat) (place : Int) : Nat → Nat → Nat × Int
  | 0, _ => (0, 0)
  | tries + 1, width =>
      let unit := place - width
      match (gridNeighbours num den unit).find? fun d => ofDecimal x.negative d unit = x with
      | some d => (d, unit)
      | none => searchDigits x num den place tries (width + 1)

/-- Digits {lit}`d` and exponent {lit}`e` such that {lit}`d * 10 ^ e` reads back as the number, with
as few digits as possible. -/
def shortest (x : Double) : Nat × Int :=
  let (num, den) := x.ratio
  if num = 0 then (0, 0) else searchDigits x num den (pointPlace num den) 17 1

end Double

end FormulaLint
