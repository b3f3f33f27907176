import FormulaLint.Yaml.Cursor

/-!
# Plain scalars

A plain scalar is written without quotes.  It ends at a colon or a comment that follows a space, at
a line that is indented too little, at a tab, and inside brackets also at the marks of the
collection around it.  Line breaks inside it are folded: one becomes a space, and of several the
first is dropped.
-/

namespace FormulaLint.Yaml

/-- Folded line breaks: a first line feed becomes a space when it stands alone and is dropped
otherwise; another first break is kept. -/
def foldBreaks (first : Char) (more : List Char) : List Char :=
  (if first ≠ '\n' then [first] else if more.isEmpty then [' '] else []) ++ more

namespace Cursor

/-- Whether a plain scalar stops at the character that is {lit}`next` after {lit}`ch`. -/
def stopsPlain (inFlow : Bool) (ch next : Char) : Bool :=
  endsToken ch ||
    (ch == ':' && (endsToken next || (inFlow && [',', '[', ']', '\x7b', '\x7d'].contains next))) ||
    (inFlow && [',', '?', '[', ']', '\x7b', '\x7d'].contains ch)

/-- The characters of a plain scalar up to a space or its end. -/
def plainWord (inFlow : Bool) : List Char → List Char
  | [] => []
  | ch :: rest =>
      if stopsPlain inFlow ch (rest.head?.getD endOfText) then [] else ch :: plainWord inFlow rest

/-- What lies between two words of a plain scalar. -/
structure PlainGap where
  /-- The characters that the gap contributes; none at the end of the scalar. -/
  text : List Char
  /-- Whether a line ended. -/
  newLine : Bool
  /-- The place behind the gap. -/
  after : Cursor

/-- The blank lines and the indentation after a line break, up to a document separator, which ends
the scalar. -/
def plainLines : Nat → List Char → Cursor → Option (List Char) × Cursor
  | 0, breaks, c => (some breaks.reverse, c)
  | fuel + 1, breaks, c =>
      if c.peek = ' ' then plainLines fuel breaks c.step
      else
        match c.lineBreak? with
        | none => (some breaks.reverse, c)
        | some (br, after) =>
            if after.atSeparator then (none, after) else plainLines fuel (br :: breaks) after

/-- The gap behind a word of a plain scalar. -/
def plainGap (c : Cursor) : PlainGap :=
  let (spaces, c) := c.takeWhile (· == ' ')
  match c.lineBreak? with
  | none => ⟨spaces, false, c⟩
  | some (first, after) =>
      if after.atSeparator then ⟨[], true, after⟩
      else
        match plainLines (after.rest.length + 1) [] after with
        | (none, after) => ⟨[], true, after⟩
        | (some more, after) => ⟨foldBreaks first more, true, after⟩

/-- The words of a plain scalar from here on.  The answer also says whether the last gap ended a
line. -/
def plainWords (inFlow : Bool) (indent : Int) :
    Nat → List Char → List Char → Bool → Cursor → List Char × Bool × Cursor
  | 0, text, _, newLine, c => (text, newLine, c)
  | fuel + 1, text, gap, newLine, c =>
      if c.peek = '#' then (text, newLine, c)
      else
        let word := plainWord inFlow c.rest
        if word.isEmpty then (text, newLine, c)
        else
          let text := text ++ gap ++ word
          let next := (c.advance word.length).plainGap
          if next.text.isEmpty || next.after.peek == '#' ||
              (!inFlow && (next.after.column : Int) < indent) then
            (text, next.newLine, next.after)
          else plainWords inFlow indent fuel text next.text next.newLine next.after

/-- A plain scalar: its text, whether a line ended behind it, and the place behind it.  Its lines
after the first are indented by at least {lit}`indent`. -/
def plainScalar (c : Cursor) (inFlow : Bool) (indent : Int) : String × Bool × Cursor :=
  let (text, newLine, after) := plainWords inFlow indent (c.rest.length + 1) [] [] false c
  (String.ofList text, newLine, after)

end Cursor

end FormulaLint.Yaml
