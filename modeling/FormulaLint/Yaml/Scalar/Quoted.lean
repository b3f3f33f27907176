import FormulaLint.Yaml.Scalar.Plain

/-!
# Quoted scalars

Between single quotes a quote is written twice and nothing else is special.  Between double quotes
a backslash starts an escape.  Line breaks are folded as in plain scalars, with the blanks around
them.
-/

namespace FormulaLint.Yaml

/-- The two sorts of quotes. -/
inductive QuoteStyle where
  | single
  | double
deriving DecidableEq, Repr

namespace QuoteStyle

/-- The character of a sort of quotes. -/
def char : QuoteStyle → Char
  | single => '\''
  | double => '"'

end QuoteStyle

/-- The character that an escape letter stands for. -/
def escapeLetter? (c : Char) : Option Char :=
  match c with
  | '0' => some '\x00'
  | 'a' => some '\x07'
  | 'b' => some '\x08'
  | 't' | '\t' => some '\t'
  | 'n' => some '\n'
  | 'v' => some '\x0b'
  | 'f' => some '\x0c'
  | 'r' => some '\r'
  | 'e' => some '\x1b'
  | ' ' => some ' '
  | '"' => some '"'
  | '\\' => some '\\'
  | '/' => some '/'
  | 'N' => some '\u0085'
  | '_' => some '\u00a0'
  | 'L' => some '\u2028'
  | 'P' => some '\u2029'
  | _ => none

/-- The number of hexadecimal digits that follow an escape letter. -/
def escapeWidth? (c : Char) : Option Nat :=
  match c with
  | 'x' => some 2
  | 'u' => some 4
  | 'U' => some 8
  | _ => none

/-- The character with a code.  Texts are modelled without lone surrogates: an escape that names one
gives the replacement character in its place. -/
def charOfCode (code : Nat) : Except ReadError Char :=
  if 0x80000000 ≤ code then .error .codePointSize
  else if 0x110000 ≤ code then .error .codePointRange
  else if 0xD800 ≤ code ∧ code < 0xE000 then .ok '\ufffd'
  else .ok (Char.ofNat code)

namespace Cursor

/-- The blanks and line breaks behind a line break in a quoted scalar. -/
def quotedBreaks : Nat → List Char → Cursor → Except ReadError (List Char × Cursor)
  | 0, _, _ => .error .malformed
  | fuel + 1, breaks, c =>
      if c.atSeparator then .error .malformed
      else
        let c := c.skipWhile (fun ch => ch == ' ' || ch == '\t')
        match c.lineBreak? with
        | some (br, after) => quotedBreaks fuel (br :: breaks) after
        | none => .ok (breaks.reverse, c)

/-- The escape behind a backslash: what it contributes, and the place behind it. -/
def escape (c : Cursor) : Except ReadError (List Char × Cursor) :=
  match escapeLetter? c.peek with
  | some ch => .ok ([ch], c.step)
  | none =>
      match escapeWidth? c.peek with
      | some width =>
          let c := c.step
          let digits := c.rest.take width
          if digits.length = width && digits.all isHexDigit then do
            let ch ← charOfCode (hexNumber digits)
            .ok ([ch], c.advance width)
          else .error .malformed
      | none =>
          match c.lineBreak? with
          | some (_, after) => quotedBreaks (after.rest.length + 1) [] after
          | none => .error .malformed

/-- Whether a character is neither blank nor special in a quoted scalar. -/
def isQuotedText (c : Char) : Bool :=
  !(c == '\'' || c == '"' || c == '\\' || endsToken c)

/-- The part of a quoted scalar up to a blank or its end. -/
def quotedWord (style : QuoteStyle) : Nat → List Char → Cursor → Except ReadError (List Char × Cursor)
  | 0, _, _ => .error .malformed
  | fuel + 1, text, c =>
      let (word, c) := c.takeWhile isQuotedText
      let text := text ++ word
      match style, c.peek with
      | .single, '\'' =>
          if c.peekAt 1 = '\'' then quotedWord style fuel (text ++ ['\'']) (c.advance 2)
          else .ok (text, c)
      | .single, '"' => quotedWord style fuel (text ++ ['"']) c.step
      | .single, '\\' => quotedWord style fuel (text ++ ['\\']) c.step
      | .double, '\'' => quotedWord style fuel (text ++ ['\'']) c.step
      | .double, '\\' => do
          let (escaped, after) ← c.step.escape
          quotedWord style fuel (text ++ escaped) after
      | _, _ => .ok (text, c)

/-- The blanks of a quoted scalar: kept within a line, folded around line breaks. -/
def quotedGap (c : Cursor) : Except ReadError (List Char × Cursor) := do
  let (blanks, c) := c.takeWhile (fun ch => ch == ' ' || ch == '\t')
  if c.peek = endOfText then .error .malformed
  else
    match c.lineBreak? with
    | none => .ok (blanks, c)
    | some (first, after) =>
        let (more, after) ← quotedBreaks (after.rest.length + 1) [] after
        .ok (foldBreaks first more, after)

/-- The words of a quoted scalar up to its closing quote. -/
def quotedWords (style : QuoteStyle) : Nat → List Char → Cursor →
    Except ReadError (List Char × Cursor)
  | 0, _, _ => .error .malformed
  | fuel + 1, text, c =>
      if c.peek = style.char then .ok (text, c.step)
      else do
        let (gap, c) ← c.quotedGap
        let (word, c) ← quotedWord style (c.rest.length + 1) [] c
        quotedWords style fuel (text ++ gap ++ word) c

/-- A quoted scalar that starts here: its text and the place behind its closing quote. -/
def quotedScalar (c : Cursor) (style : QuoteStyle) : Except ReadError (String × Cursor) := do
  let (word, c) ← quotedWord style (c.rest.length + 1) [] c.step
  let (text, c) ← quotedWords style (c.rest.length + 1) word c
  return (String.ofList text, c)

end Cursor

end FormulaLint.Yaml
