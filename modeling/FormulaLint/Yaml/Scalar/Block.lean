import FormulaLint.Yaml.Cursor

/-!
# Block scalars

A block scalar takes whole lines that are indented deeper than what surrounds it.  A literal one
keeps its line breaks, a folded one joins lines that start with neither space nor tab.  The header
may fix the indentation and say what happens to the line breaks at the end: one is kept, none, or
all of them.
-/

namespace FormulaLint.Yaml

/-- What happens to the line breaks at the end of a block scalar. -/
inductive Chomping where
  | clip
  | strip
  | keep
deriving DecidableEq, Repr

/-- The header of a block scalar. -/
structure BlockHeader where
  chomping : Chomping := .clip
  increment : Option Nat := none
deriving DecidableEq, Repr

namespace Cursor

/-- A chomping indicator, if one stands here. -/
def chomping? (c : Cursor) : Option Chomping :=
  if c.peek = '+' then some .keep else if c.peek = '-' then some .strip else none

/-- An indentation indicator, if one stands here; it cannot be zero. -/
def increment? (c : Cursor) : Except ReadError (Option Nat) :=
  if c.peek = '0' then .error .malformed
  else if c.peek.isDigit then .ok (some (c.peek.toNat - 48))
  else .ok none

/-- The header behind the mark of a block scalar: the two indicators in either order, and the rest of
the line. -/
def blockHeader (c : Cursor) : Except ReadError (BlockHeader × Cursor) := do
  let (header, c) ← match c.chomping? with
    | some chomping => do
        let c := c.step
        match ← c.increment? with
        | some n => pure (⟨chomping, some n⟩, c.step)
        | none => pure (⟨chomping, none⟩, c)
    | none => do
        match ← c.increment? with
        | some n =>
            let c := c.step
            match c.chomping? with
            | some chomping => pure (⟨chomping, some n⟩, c.step)
            | none => pure (⟨.clip, some n⟩, c)
        | none => pure (({} : BlockHeader), c)
  if endsWord c.peek then
    let c ← c.ignoredLine
    return (header, c)
  else .error .malformed

/-- The blank lines in front of a block scalar and the deepest indentation among them and its first
line. -/
def blockIndentation : Nat → List Char → Nat → Cursor → List Char × Nat × Cursor
  | 0, breaks, deepest, c => (breaks.reverse, deepest, c)
  | fuel + 1, breaks, deepest, c =>
      if c.peek = ' ' then
        let c := c.step
        blockIndentation fuel breaks (max deepest c.column) c
      else
        match c.lineBreak? with
        | some (br, after) => blockIndentation fuel (br :: breaks) deepest after
        | none => (breaks.reverse, deepest, c)

/-- The place behind the spaces up to a column. -/
def skipIndent (c : Cursor) (indent : Nat) : Cursor :=
  let spaces := (c.rest.takeWhile (· == ' ')).length
  c.advance (min spaces (indent - c.column))

/-- The blank lines from here on, and the place behind the indentation of the next line. -/
def blockBreaks (indent : Nat) : Nat → List Char → Cursor → List Char × Cursor
  | 0, breaks, c => (breaks.reverse, c)
  | fuel + 1, breaks, c =>
      let c := c.skipIndent indent
      match c.lineBreak? with
      | some (br, after) => blockBreaks indent fuel (br :: breaks) after
      | none => (breaks.reverse, c)

/-- The lines of a block scalar from here on: their text, the last line break, the blank lines behind
it, and the place behind them. -/
def blockLines (folded : Bool) (indent : Nat) :
    Nat → List Char → List Char → List Char → Cursor →
    List Char × List Char × List Char × Cursor
  | 0, text, last, breaks, c => (text, last, breaks, c)
  | fuel + 1, text, last, breaks, c =>
      if c.column = indent ∧ c.peek ≠ endOfText then
        let startsBlank := c.peek == ' ' || c.peek == '\t'
        let (line, c) := c.takeWhile (fun ch => !isBreak ch)
        let text := text ++ breaks ++ line
        let (last, c) := match c.lineBreak? with
          | some (br, after) => ([br], after)
          | none => ([], c)
        let (breaks, c) := blockBreaks indent (c.rest.length + 1) [] c
        if c.column = indent ∧ c.peek ≠ endOfText then
          let joins := folded && last == ['\n'] && !startsBlank &&
            !(c.peek == ' ' || c.peek == '\t')
          let joint := if joins then (if breaks.isEmpty then [' '] else []) else last
          blockLines folded indent fuel (text ++ joint) last breaks c
        else (text, last, breaks, c)
      else (text, last, breaks, c)

/-- A block scalar whose mark stands here, inside a collection of the given indentation: its text and
the place behind it. -/
def blockScalar (c : Cursor) (folded : Bool) (indent : Int) : Except ReadError (String × Cursor) := do
  let (header, c) ← c.step.blockHeader
  let least := (max 1 (indent + 1)).toNat
  let fuel := c.rest.length + 1
  let (indent, breaks, c) := match header.increment with
    | some n =>
        let indent := least + n - 1
        let (breaks, c) := c.blockBreaks indent fuel []
        (indent, breaks, c)
    | none =>
        let (breaks, deepest, c) := blockIndentation fuel [] 0 c
        (max least deepest, breaks, c)
  let (text, last, breaks, c) := blockLines folded indent fuel [] [] breaks c
  let ending := match header.chomping with
    | .clip => last
    | .strip => []
    | .keep => last ++ breaks
  return (String.ofList (text ++ ending), c)

end Cursor

end FormulaLint.Yaml
