import FormulaLint.Yaml.Error

/-!
# Reading positions

A cursor is a place in a text together with the characters that follow.  Lines end at a line feed,
a carriage return or both together, a next-line mark, and the line and paragraph separators.  A
byte order mark takes no column.

Main results:

- Theorem {lit}`Cursor.rest_advance`: advancing drops characters and changes none.
-/

namespace FormulaLint.Yaml

/-- A place in a text, counted from zero. -/
structure Mark where
  line : Nat := 0
  column : Nat := 0
deriving DecidableEq, Repr

/-- What stands for the end of a text where a character is asked for. -/
def endOfText : Char := '\x00'

/-- Whether a character ends a line. -/
def isBreak (c : Char) : Bool :=
  c == '\r' || c == '\n' || c == '\u0085' || c == '\u2028' || c == '\u2029'

/-- Whether a line has come to its end. -/
def endsLine (c : Char) : Bool :=
  c == endOfText || isBreak c

/-- Whether a word has come to its end, with a space or the end of the line. -/
def endsWord (c : Char) : Bool :=
  c == ' ' || endsLine c

/-- Whether a word has come to its end, where tabs count as spaces. -/
def endsToken (c : Char) : Bool :=
  c == '\t' || endsWord c

/-- Whether a character may stand in a name: a letter or digit of ASCII, a hyphen or underscore. -/
def isNameChar (c : Char) : Bool :=
  c.isAlphanum || c == '-' || c == '_'

/-- Whether a character is a hexadecimal digit. -/
def isHexDigit (c : Char) : Bool :=
  c.isDigit || ('a' ≤ c && c ≤ 'f') || ('A' ≤ c && c ≤ 'F')

/-- The value of a hexadecimal digit. -/
def hexValue (c : Char) : Nat :=
  if c.isDigit then c.toNat - 48 else if 'a' ≤ c then c.toNat - 87 else c.toNat - 55

/-- The number that hexadecimal digits stand for. -/
def hexNumber (cs : List Char) : Nat :=
  cs.foldl (fun n c => n * 16 + hexValue c) 0

/-- Whether a character may stand in a text at all. -/
def isAllowed (c : Char) : Bool :=
  let n := c.toNat
  n == 0x09 || n == 0x0A || n == 0x0D || (0x20 ≤ n && n ≤ 0x7E) || n == 0x85 ||
    (0xA0 ≤ n && n ≤ 0xD7FF) || (0xE000 ≤ n && n ≤ 0xFFFD) || 0x10000 ≤ n

/-- A place in a text, with the characters that follow. -/
structure Cursor where
  rest : List Char
  index : Nat := 0
  line : Nat := 0
  column : Nat := 0
deriving DecidableEq, Repr

namespace Cursor

/-- The start of a text. -/
def ofText (text : List Char) : Cursor :=
  { rest := text }

/-- The place of a cursor. -/
def mark (c : Cursor) : Mark :=
  ⟨c.line, c.column⟩

/-- The character a number of places ahead. -/
def peekAt (c : Cursor) (n : Nat) : Char :=
  c.rest[n]?.getD endOfText

/-- The next character. -/
def peek (c : Cursor) : Char :=
  c.peekAt 0

/-- Step over one character. -/
def step (c : Cursor) : Cursor :=
  match c.rest with
  | [] => c
  | ch :: rest =>
      if isBreak ch && !(ch == '\r' && rest.head? == some '\n') then
        ⟨rest, c.index + 1, c.line + 1, 0⟩
      else if ch = '\ufeff' then ⟨rest, c.index + 1, c.line, c.column⟩
      else ⟨rest, c.index + 1, c.line, c.column + 1⟩

/-- Step over a number of characters. -/
def advance (c : Cursor) : Nat → Cursor
  | 0 => c
  | n + 1 => c.step.advance n

@[simp] theorem rest_step (c : Cursor) : c.step.rest = c.rest.drop 1 := by
  unfold step
  split
  · simp_all
  · split
    · simp_all
    · split <;> simp_all

/-- Advancing drops characters and changes none. -/
@[simp] theorem rest_advance (c : Cursor) (n : Nat) : (c.advance n).rest = c.rest.drop n := by
  induction n generalizing c with
  | zero => rfl
  | succ n ih => simp [advance, ih]

/-- The characters up to the first one outside a class, and the place behind them. -/
def takeWhile (c : Cursor) (p : Char → Bool) : List Char × Cursor :=
  let taken := c.rest.takeWhile p
  (taken, c.advance taken.length)

/-- The place behind the characters of a class. -/
def skipWhile (c : Cursor) (p : Char → Bool) : Cursor :=
  (c.takeWhile p).2

/-- The place behind the spaces. -/
def skipSpaces (c : Cursor) : Cursor :=
  c.skipWhile (· == ' ')

/-- The place behind a comment, if one starts here. -/
def skipComment (c : Cursor) : Cursor :=
  if c.peek = '#' then c.skipWhile (fun ch => !isBreak ch) else c

/-- A line break and the place behind it: the two separators of Unicode stand for themselves, every
other break for a line feed. -/
def lineBreak? (c : Cursor) : Option (Char × Cursor) :=
  match c.rest with
  | '\r' :: '\n' :: _ => some ('\n', c.advance 2)
  | '\u2028' :: _ => some ('\u2028', c.step)
  | '\u2029' :: _ => some ('\u2029', c.step)
  | ch :: _ => if isBreak ch then some ('\n', c.step) else none
  | [] => none

/-- The place behind a line break, if there is one. -/
def skipBreak (c : Cursor) : Cursor :=
  match c.lineBreak? with
  | some (_, after) => after
  | none => c

/-- Whether a document separator starts here, the column left aside. -/
def atSeparator (c : Cursor) : Bool :=
  (['-', '-', '-'].isPrefixOf c.rest || ['.', '.', '.'].isPrefixOf c.rest) && endsToken (c.peekAt 3)

/-- The end of a line that may hold a comment; anything else is a fault. -/
def ignoredLine (c : Cursor) : Except ReadError Cursor :=
  let c := c.skipSpaces.skipComment
  if endsLine c.peek then .ok c.skipBreak else .error .malformed

end Cursor

end FormulaLint.Yaml
