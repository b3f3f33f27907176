import FormulaLint.Data.Moment
import FormulaLint.Text.Shown

/-!
# Single values

Configuration data is made of single values: nothing, truth values, numbers, texts, bytes, dates and
moments.  As keys of a dictionary, numbers count by their value alone, and a truth value counts as
zero or one.
-/

namespace FormulaLint

/-- A single value. -/
inductive Atom where
  | null
  | truth (value : Bool)
  | number (value : Number)
  | text (value : String)
  | bytes (value : List Nat)
  | date (value : Date)
  | moment (value : Moment)
deriving DecidableEq, Repr

/-- Whether a whole number and a double precision number have the same value. -/
def Double.isWhole (x : Double) (n : Int) : Bool :=
  x.exponentField != 2047 &&
    (let (num, den) := x.ratio
     (if x.negative then -(num : Int) else num) == n * den)

/-- Whether two numbers have the same value. -/
def Number.same : Number → Number → Bool
  | .whole m, .whole n => m == n
  | .whole n, .double x | .double x, .whole n => x.isWhole n
  | .double x, .double y =>
      x == y || (x.exponentField == 0 && x.fraction == 0 && y.exponentField == 0 && y.fraction == 0)

/-- One byte as a message shows it between the given quotes. -/
def shownByte (quote : Char) (b : Nat) : List Char :=
  let c := Char.ofNat b
  if c = quote ∨ c = '\\' then ['\\', c]
  else if c = '\t' then ['\\', 't']
  else if c = '\n' then ['\\', 'n']
  else if c = '\r' then ['\\', 'r']
  else if 0x20 ≤ b ∧ b < 0x7F then [c]
  else '\\' :: 'x' :: Text.hexDigits 2 b

/-- Bytes as a message shows them. -/
def shownBytes (bytes : List Nat) : String :=
  let quote := Text.shownQuote (bytes.map Char.ofNat)
  String.ofList ('b' :: quote :: (bytes.flatMap (shownByte quote) ++ [quote]))

namespace Atom

/-- The number that a value counts as in a dictionary, if it does. -/
def asNumber? : Atom → Option Number
  | truth b => some (.whole (if b then 1 else 0))
  | number n => some n
  | _ => none

/-- Whether two values are the same key of a dictionary. -/
def sameKey (a b : Atom) : Bool :=
  match a.asNumber?, b.asNumber? with
  | some m, some n => m.same n
  | none, none =>
      match a, b with
      | moment x, moment y => x.same y
      | _, _ => a == b
  | _, _ => false

/-- A value as a message shows it. -/
def shown : Atom → String
  | null => "None"
  | truth b => if b then "True" else "False"
  | number n => n.text
  | text s => Text.shown s
  | bytes b => shownBytes b
  | date d => d.shown
  | moment m => m.shown

/-- Whether a value is a number with too many digits to be written. -/
def isOverlong : Atom → Bool
  | number n => n.isOverlong
  | _ => false

/-- The plain text of a value. -/
def plain : Atom → String
  | text s => s
  | date d => d.text
  | moment m => m.text
  | other => other.shown

/-- The word for the sort of a value. -/
def typeName : Atom → String
  | null => "NoneType"
  | truth _ => "bool"
  | number (.whole _) => "int"
  | number (.double _) => "float"
  | text _ => "str"
  | bytes _ => "bytes"
  | date _ => "date"
  | moment _ => "datetime"

end Atom

end FormulaLint
