import FormulaLint.Expr.Basic
import FormulaLint.Text.Blank
import FormulaLint.Text.Doubled
import FormulaLint.Text.IdentifierPart
import FormulaLint.Text.IdentifierStart

/-!
# Writing names, texts and numbers

A name is written as it is when it reads back as that name, and between single quotes otherwise.
Texts are written between double quotes.  Numbers keep their text, with a digit in front of the
decimal separator and none without a digit behind it, because both profiles can read that.
-/

namespace FormulaLint

/-- Names that mean something else when they are not quoted. -/
def reservedNames : List String :=
  operatorWords ++ ["true", "false"]

/-- Whether a text is a name by its characters. -/
def isIdentifier : List Char → Bool
  | [] => false
  | c :: rest => Text.isIdentifierStart c && rest.all Text.isIdentifierPart

/-- Whether a name has to be written between quotes. -/
def needsQuotes (name : String) : Bool :=
  reservedNames.contains name || name.toList.any (fun c => 0xFFFF < c.toNat) ||
    !isIdentifier name.toList

/-- A name as a formula writes it. -/
def nameText (name : String) : List Char :=
  if needsQuotes name then Text.enclose '\'' name.toList else name.toList

/-- A text literal as a formula writes it. -/
def quotedText (value : String) : List Char :=
  Text.enclose '"' value.toList

/-- Drop each point that no digit follows: one in front of an exponent or at the end. -/
def dropBarePoints : List Char → List Char
  | [] => []
  | '.' :: rest =>
      match rest with
      | [] => []
      | next :: behind =>
          if next = 'e' ∨ next = 'E' ∨ (next = '\n' ∧ behind = []) then dropBarePoints rest
          else '.' :: dropBarePoints rest
  | c :: rest => c :: dropBarePoints rest

/-- A number as a formula writes it. -/
def numberText (value : Number) (text : String) (point : Char) : List Char :=
  let given := if text.isEmpty then value.text.toList else text.toList
  let led := match given with
    | '.' :: _ => '0' :: given
    | _ => given
  (dropBarePoints led).map fun c => if c = '.' then point else c

namespace Literal

/-- A literal as a formula writes it. -/
def render (point : Char) : Literal → List Char
  | logical value => (if value then "true" else "false").toList
  | number value written => numberText value written point
  | text value => quotedText value

/-- The text that a literal keeps: what was written for a number, the written form otherwise. -/
def sourceText : Literal → String
  | number _ written => written
  | other => String.ofList (other.render '.')

end Literal

namespace Identifier

/-- An identifier as a formula writes it. -/
def render : Identifier → List Char
  | plain name | context name => nameText name
  | global name => '[' :: '@' :: (nameText name ++ [']'])
  | field source name =>
      (if source.isEmpty then [] else nameText source) ++
        '[' :: '@' :: (nameText name ++ [']'])

end Identifier

/-- A chain of member names as a formula writes it. -/
def chainText (chain : List Segment) : List Char :=
  chain.flatMap fun segment => segment.separator.spelling.toList ++ nameText segment.name

/-- A function name as a formula writes it.  A word for an operator needs no quotes there, because
no blank stands between it and the parenthesis. -/
def calleeText (qualifiers : List String) (function : String) : List Char :=
  ['.'].intercalate ((qualifiers ++ [function]).map fun part =>
    if operatorWords.contains part then part.toList else nameText part)

/-- Whether a text starts with a word for an operator. -/
def startsWithOperatorWord (cs : List Char) : Bool :=
  operatorWords.any fun word =>
    word.toList.isPrefixOf cs &&
      match (cs.drop word.length).head? with
      | none => true
      | some c => Text.isBlank c

end FormulaLint
