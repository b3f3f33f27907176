import FormulaLint.Text.Pattern
import FormulaLint.Yaml.Tag

/-!
# Tags that scalars imply

A plain scalar without a tag gets one from its text: truth values, numbers, dates and so on are
recognised by their form, and everything else is text.  A line feed at the end of a scalar does not
hide its form.
-/

namespace FormulaLint.Yaml

namespace Form

open Text.Pattern

/-- A decimal digit. -/
def digit : Text.Pattern :=
  one Char.isDigit

/-- An optional sign. -/
def sign : Text.Pattern :=
  optional (one fun c => c == '-' || c == '+')

/-- Any number of digits and underscores. -/
def digits : Text.Pattern :=
  many (one fun c => c.isDigit || c == '_')

/-- A digit followed by digits and underscores. -/
def number : Text.Pattern :=
  both digit digits

/-- One or two digits. -/
def oneOrTwo : Text.Pattern :=
  both digit (optional digit)

/-- A part of a number to base sixty behind the first one. -/
def sixties : Text.Pattern :=
  oneOrMore (sequence [char ':', optional (one fun c => '0' ≤ c && c ≤ '5'), digit])

/-- A signed exponent. -/
def exponent : Text.Pattern :=
  optional (sequence [one (fun c => c == 'e' || c == 'E'), one (fun c => c == '-' || c == '+'),
    oneOrMore digit])

/-- Truth values. -/
def truth : Text.Pattern :=
  words ["yes", "Yes", "YES", "no", "No", "NO", "true", "True", "TRUE", "false", "False", "FALSE",
    "on", "On", "ON", "off", "Off", "OFF"]

/-- Numbers with a point. -/
def fraction : Text.Pattern :=
  choice [
    sequence [sign, number, char '.', digits, exponent],
    sequence [char '.', number, exponent],
    sequence [sign, number, sixties, char '.', digits],
    sequence [sign, char '.', words ["inf", "Inf", "INF"]],
    sequence [char '.', words ["nan", "NaN", "NAN"]]]

/-- Whole numbers to base two, eight, ten, sixteen and sixty. -/
def whole : Text.Pattern :=
  let nonZero := one fun c => '1' ≤ c && c ≤ '9'
  both sign (choice [
    both (word "0b") (oneOrMore (one fun c => c == '0' || c == '1' || c == '_')),
    both (char '0') (oneOrMore (one fun c => ('0' ≤ c && c ≤ '7') || c == '_')),
    char '0',
    both nonZero digits,
    both (word "0x") (oneOrMore (one fun c => c.isDigit || ('a' ≤ c && c ≤ 'f') ||
      ('A' ≤ c && c ≤ 'F') || c == '_')),
    sequence [nonZero, digits, sixties]])

/-- The absence of a value. -/
def null : Text.Pattern :=
  words ["~", "null", "Null", "NULL", ""]

/-- Four digits. -/
def year : Text.Pattern :=
  sequence [digit, digit, digit, digit]

/-- Dates, and moments with a time of day and perhaps a zone. -/
def timestamp : Text.Pattern :=
  let blank := one fun c => c == ' ' || c == '\t'
  choice [
    sequence [year, char '-', digit, digit, char '-', digit, digit],
    sequence [year, char '-', oneOrTwo, char '-', oneOrTwo,
      either (one fun c => c == 'T' || c == 't') (oneOrMore blank),
      oneOrTwo, char ':', digit, digit, char ':', digit, digit,
      optional (both (char '.') (many digit)),
      optional (both (many blank) (either (char 'Z')
        (sequence [one (fun c => c == '-' || c == '+'), oneOrTwo,
          optional (sequence [char ':', digit, digit])])))]]

/-- The forms in the order in which they are tried. -/
def all : List (Text.Pattern × Tag) :=
  [(truth, .truth), (fraction, .fraction), (whole, .whole), (word "<<", .merge), (null, .null),
   (timestamp, .timestamp), (word "=", .value), (words ["!", "&", "*"], .other "tag:yaml.org,2002:yaml")]

end Form

/-- The tag that the text of a scalar implies. -/
def impliedTag (text : String) : Tag :=
  let cs := text.toList
  let body := if cs.getLast? = some '\n' then cs.dropLast else cs
  match Form.all.find? (fun form => form.1.fits cs || form.1.fits body) with
  | some form => form.2
  | none => .text

end FormulaLint.Yaml
