import FormulaLint.Yaml.Scalar.Block
import FormulaLint.Yaml.Scalar.Quoted
import FormulaLint.Yaml.Tag

/-!
# Tokens of a YAML text

Tokens are the marks and words of a YAML text.  The block structure that indentation expresses is
made explicit by tokens of its own.
-/

namespace FormulaLint.Yaml

/-- How a scalar is written. -/
inductive ScalarStyle where
  | plain
  | quoted (quotes : QuoteStyle)
  | literal
  | folded
deriving DecidableEq, Repr

namespace ScalarStyle

/-- Whether a scalar is a block of lines. -/
def isBlock : ScalarStyle → Bool
  | literal | folded => true
  | plain | quoted _ => false

/-- Whether a scalar stands between quotes. -/
def isQuoted : ScalarStyle → Bool
  | quoted _ => true
  | plain | literal | folded => false

end ScalarStyle

/-- A directive in front of a document. -/
inductive Directive where
  | version (major : Nat)
  | tagHandle (handle meaning : String)
  | other
deriving DecidableEq, Repr

/-- What a token is. -/
inductive TokenKind where
  | directive (directive : Directive)
  | documentStart
  | documentEnd
  | streamEnd
  | blockSequenceStart
  | blockMappingStart
  | blockEnd
  | flowSequenceStart
  | flowSequenceEnd
  | flowMappingStart
  | flowMappingEnd
  | blockEntry
  | flowEntry
  | key
  | value
  | alias (name : String)
  | anchor (name : String)
  | tag (tag : WrittenTag)
  | scalar (text : String) (style : ScalarStyle)
deriving DecidableEq, Repr

/-- A token and the place where it starts. -/
structure Token where
  kind : TokenKind
  mark : Mark
deriving DecidableEq, Repr

namespace Cursor

/-- The number that starts here. -/
def versionNumber (c : Cursor) : Except ReadError (Nat × Cursor) :=
  let (digits, c) := c.takeWhile Char.isDigit
  if digits.isEmpty then .error .malformed
  else if 4300 < digits.length then .error (.overlong digits.length)
  else .ok (natOfDigits digits, c)

/-- The version that a directive gives. -/
def versionDirective (c : Cursor) : Except ReadError (Directive × Cursor) := do
  let (major, c) ← c.skipSpaces.versionNumber
  if c.peek ≠ '.' then .error .malformed
  else
    let (_, c) ← c.step.versionNumber
    if endsWord c.peek then return (.version major, c) else .error .malformed

/-- The tag handle that a directive defines. -/
def tagDirective (c : Cursor) : Except ReadError (Directive × Cursor) := do
  let (handle, c) ← c.skipSpaces.tagHandle
  if c.peek ≠ ' ' then .error .malformed
  else
    let (meaning, c) ← c.skipSpaces.tagPiece
    if endsWord c.peek then return (.tagHandle handle meaning, c) else .error .malformed

/-- A directive whose percent sign stands here, up to the end of its line. -/
def directive (c : Cursor) : Except ReadError (Directive × Cursor) := do
  let (name, c) := c.step.takeWhile isNameChar
  if name.isEmpty || !endsWord c.peek then .error .malformed
  else
    let word := String.ofList name
    let (directive, c) ←
      if word = "YAML" then c.versionDirective
      else if word = "TAG" then c.tagDirective
      else pure (.other, c.skipWhile (fun ch => !isBreak ch))
    let c ← c.ignoredLine
    return (directive, c)

/-- The name of an anchor or alias whose mark stands here. -/
def anchorName (c : Cursor) : Except ReadError (String × Cursor) :=
  let (name, c) := c.step.takeWhile isNameChar
  if name.isEmpty then .error .malformed
  else if endsToken c.peek || "?:,]\x7d%@`".toList.contains c.peek then
    .ok (String.ofList name, c)
  else .error .malformed

end Cursor

end FormulaLint.Yaml
