import FormulaLint.Number.Value
import FormulaLint.Text.Shown

/-!
# Why a text cannot be read

Nearly every fault of a YAML text is reported alike.  A few texts are well formed and yet hold a
value that does not exist: a character beyond the last code point, a month beyond December, a
number without digits.  These are reported for what they are, and so is a number that is read but
has too many digits to be written.

That a text is malformed is decided here; what is said about it is not.  The words quote the text
around the fault, or name the file if it is parsed while it is read, and {lit}`Wording` takes them
from outside.
-/

namespace FormulaLint.Yaml

/-- Why a text cannot be read as YAML. -/
inductive ReadError where
  | malformed
  | codePointRange
  | codePointSize
  | overlong (digits : Nat)
  | wholeNumber (base : Nat) (text : String)
  | fraction (text : String)
  | year (number : Nat)
  | month
  | day
  | hour
  | minute
  | second
  | zoneOffset (shown : String)
  | noDigits
  | noTruthValue
  | noTimestamp
  | timestampNode
  | unwritable
deriving DecidableEq, Repr

namespace ReadError

/-- The wording of an error; some have none of their own. -/
def message? : ReadError → Option String
  | malformed => none
  | codePointRange => some "chr() arg not in range(0x110000)"
  | codePointSize => none
  | overlong digits =>
      some ("Exceeds the limit (4300 digits) for integer string conversion: value has " ++
        intText digits ++ " digits; use sys.set_int_max_str_digits() to increase the limit")
  | wholeNumber base text =>
      some ("invalid literal for int() with base " ++ intText base ++ ": " ++
        String.ofList ((Text.shown text).toList.take 200))
  | fraction text => some ("could not convert string to float: " ++ Text.shown text)
  | year number => some ("year " ++ intText number ++ " is out of range")
  | month => some "month must be in 1..12"
  | day => some "day is out of range for month"
  | hour => some "hour must be in 0..23"
  | minute => some "minute must be in 0..59"
  | second => some "second must be in 0..59"
  | zoneOffset shown =>
      some ("offset must be a timedelta strictly between -timedelta(hours=24) and " ++
        "timedelta(hours=24), not " ++ shown ++ ".")
  | noDigits | noTruthValue | noTimestamp | timestampNode => none
  | unwritable => some overlongWording

end ReadError

/-- What a reader says about a text that is not YAML: about a text at hand, and about the text of a
file that goes by a name. -/
structure Wording where
  ofText : String → String
  ofFile : (name text : String) → String

/-- The words of a reader that does not tell what is wrong. -/
def Wording.plain : Wording where
  ofText _ := "the text is not YAML"
  ofFile name _ := name ++ " is not YAML"

end FormulaLint.Yaml
