import FormulaLint.Diagnostic
import FormulaLint.Operator
import FormulaLint.Text.Shown

/-!
# Tokens

The tokens of a formula text.  A token carries what the text stands for: the unescaped content of
a text literal, the unquoted name of an identifier, a number with a point for its decimal
separator.  Text that is no token becomes an error token, so that nothing is lost.
-/

namespace FormulaLint

/-- The three pairs of delimiters. -/
inductive Delimiter where
  | parenthesis
  | brace
  | bracket
deriving DecidableEq, Repr

namespace Delimiter

/-- The opening character of a pair. -/
def opening : Delimiter → String
  | parenthesis => "("
  | brace => "\x7b"
  | bracket => "["

/-- The closing character of a pair. -/
def closing : Delimiter → String
  | parenthesis => ")"
  | brace => "\x7d"
  | bracket => "]"

end Delimiter

/-- Punctuation that is not an operator. -/
inductive Separator where
  | opening (delimiter : Delimiter)
  | closing (delimiter : Delimiter)
  | colon
  | list
  | chaining
deriving DecidableEq, Repr

/-- Why a piece of text is not a token. -/
inductive LexicalError where
  | unterminatedText
  | unterminatedName
  | unterminatedComment
  | invalidCharacters
deriving DecidableEq, Repr

namespace LexicalError

/-- The diagnostic code of a lexical error. -/
def code : LexicalError → DiagnosticCode
  | unterminatedText | unterminatedName => .unterminatedString
  | unterminatedComment => .unterminatedComment
  | invalidCharacters => .invalidCharacter

/-- The wording of a lexical error on the given piece of text. -/
def message (lexeme : String) : LexicalError → String
  | unterminatedComment => "Block comment is never closed"
  | unterminatedName => "Quoted identifier " ++ Text.shown lexeme ++ " is never closed"
  | unterminatedText => "Text literal " ++ Text.shown lexeme ++ " is never closed"
  | invalidCharacters => "Invalid character(s) " ++ Text.shown lexeme

end LexicalError

/-- What a token stands for. -/
inductive Payload where
  | logical (value : Bool)
  | number (text : String)
  | text (value : String)
  | identifier (name : String) (quoted : Bool)
  | global (name : String)
  | field (source name : String)
  | operator (op : Operator)
  | separator (sep : Separator)
  | error (error : LexicalError)
deriving DecidableEq, Repr

namespace Payload

/-- The word for the kind of a token. -/
def kindLabel : Payload → String
  | logical _ => "LogicalLiteral"
  | number _ => "NumberLiteral"
  | text _ => "TextLiteral"
  | identifier _ _ => "Identifier"
  | global _ | field _ _ => "DisambiguatedIdentifier"
  | operator _ => "Operator"
  | separator _ => "Separator"
  | error _ => "Error"

end Payload

/-- A token with its text and place. -/
structure Token where
  payload : Payload
  lexeme : String
  span : Span
deriving DecidableEq, Repr

namespace Token

/-- Whether the token is an error token. -/
def isError (t : Token) : Bool :=
  match t.payload with
  | .error _ => true
  | _ => false

/-- The diagnostic of an error token. -/
def diagnostic? (t : Token) : Option Diagnostic :=
  match t.payload with
  | .error e => some (.report e.code t.span (e.message t.lexeme))
  | _ => none

/-- A token as a message describes it. -/
def describe (t : Token) : String :=
  t.payload.kindLabel ++ " '" ++ t.lexeme ++ "'"

end Token

/-- A comment with its text and place. -/
structure Comment where
  lexeme : String
  span : Span
deriving DecidableEq, Repr

end FormulaLint
