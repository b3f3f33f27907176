import FormulaLint.Yaml.Token

/-!
# From text to tokens

The text is split into tokens from left to right.  A word may turn out to be the key of a mapping
only when a colon follows it on the same line, so the place of the last word that could be a key is
kept for every level of brackets; when the colon comes, the key mark is put in front of that word.
Outside of brackets the indentation opens and closes block collections.
-/

namespace FormulaLint.Yaml

/-- A word that may turn out to be a key: the number of its token and its place.  A required key
stands where nothing but a key can stand. -/
structure PossibleKey where
  token : Nat
  required : Bool
  index : Nat
  mark : Mark
deriving DecidableEq, Repr

/-- The state of splitting a text into tokens. -/
structure Splitting where
  cursor : Cursor
  tokens : List Token := []
  /-- How many brackets are open. -/
  depth : Int := 0
  /-- The indentation of the current block collection, and of those around it. -/
  indent : Int := -1
  outer : List Int := []
  /-- Whether a key may start here. -/
  keyAllowed : Bool := true
  /-- The words that may turn out to be keys, by the number of brackets around them. -/
  keys : List (Int × PossibleKey) := []
deriving DecidableEq, Repr

namespace Splitting

/-- Whether the cursor is inside brackets. -/
def inFlow (s : Splitting) : Bool :=
  s.depth ≠ 0

/-- Add a token at the end. -/
def push (s : Splitting) (kind : TokenKind) (mark : Mark) : Splitting :=
  { s with tokens := s.tokens ++ [⟨kind, mark⟩] }

/-- Put a token in front of the token with a number. -/
def insertAt (s : Splitting) (number : Nat) (kind : TokenKind) (mark : Mark) : Splitting :=
  { s with tokens := s.tokens.take number ++ ⟨kind, mark⟩ :: s.tokens.drop number }

/-- Give up the words that can no longer be keys: those of other lines and those too far away. -/
def dropStale (s : Splitting) : Except ReadError Splitting :=
  let stale := fun (key : PossibleKey) =>
    key.mark.line ≠ s.cursor.line || 1024 < s.cursor.index - key.index
  if s.keys.any (fun entry => stale entry.2 && entry.2.required) then .error .malformed
  else .ok { s with keys := s.keys.filter (fun entry => !stale entry.2) }

/-- Give up the word that may be a key at the current level. -/
def dropKey (s : Splitting) : Except ReadError Splitting :=
  if s.keys.any (fun entry => entry.1 = s.depth && entry.2.required) then .error .malformed
  else .ok { s with keys := s.keys.filter (fun entry => entry.1 ≠ s.depth) }

/-- Note that the token that comes next may be a key. -/
def saveKey (s : Splitting) : Except ReadError Splitting := do
  if s.keyAllowed then
    let c := s.cursor
    let required := !s.inFlow && s.indent = c.column
    let s ← s.dropKey
    return { s with keys := s.keys ++ [(s.depth, ⟨s.tokens.length, required, c.index, c.mark⟩)] }
  else return s

/-- Close the block collections that are indented deeper than a column. -/
def closeBlocks (column : Int) (s : Splitting) : List Int → Splitting
  | [] => s
  | outer :: rest =>
      if s.indent > column then
        closeBlocks column { (s.push .blockEnd s.cursor.mark) with indent := outer, outer := rest } rest
      else s

/-- Close block collections as a column demands; indentation means nothing inside brackets. -/
def unwind (s : Splitting) (column : Int) : Splitting :=
  if s.inFlow then s else closeBlocks column s s.outer

/-- Open a block collection if a column is deeper than the current one. -/
def openBlock (s : Splitting) (column : Nat) : Option Splitting :=
  if s.indent < column then
    some { s with outer := s.indent :: s.outer, indent := column }
  else none

/-- Skip spaces, comments and line breaks; outside of brackets a new line may start with a key. -/
def skipBlank : Nat → Splitting → Splitting
  | 0, s => s
  | fuel + 1, s =>
      let c := s.cursor.skipSpaces.skipComment
      match c.lineBreak? with
      | some (_, after) =>
          skipBlank fuel { s with cursor := after, keyAllowed := s.keyAllowed || !s.inFlow }
      | none => { s with cursor := c }

/-- Skip what separates tokens, with a byte order mark at the start of the text. -/
def skipToToken (s : Splitting) : Splitting :=
  let s := if s.cursor.index = 0 ∧ s.cursor.peek = '\ufeff' then { s with cursor := s.cursor.step } else s
  skipBlank (s.cursor.rest.length + 1) s

/-! ## Single tokens -/

/-- The end of the text closes everything. -/
def atEnd (s : Splitting) : Except ReadError Splitting := do
  let s ← (s.unwind (-1)).dropKey
  return (s.push .streamEnd s.cursor.mark)

/-- A directive. -/
def atDirective (s : Splitting) : Except ReadError Splitting := do
  let s ← (s.unwind (-1)).dropKey
  let mark := s.cursor.mark
  let (directive, c) ← s.cursor.directive
  return { (s.push (.directive directive) mark) with cursor := c, keyAllowed := false }

/-- A mark that starts or ends a document. -/
def atDocumentMark (s : Splitting) (kind : TokenKind) : Except ReadError Splitting := do
  let s ← (s.unwind (-1)).dropKey
  return { (s.push kind s.cursor.mark) with cursor := s.cursor.advance 3, keyAllowed := false }

/-- An opening bracket. -/
def atOpening (s : Splitting) (kind : TokenKind) : Except ReadError Splitting := do
  let s ← s.saveKey
  return { (s.push kind s.cursor.mark) with
    depth := s.depth + 1, cursor := s.cursor.step, keyAllowed := true }

/-- A closing bracket. -/
def atClosing (s : Splitting) (kind : TokenKind) : Except ReadError Splitting := do
  let s ← s.dropKey
  return { (s.push kind s.cursor.mark) with
    depth := s.depth - 1, cursor := s.cursor.step, keyAllowed := false }

/-- A comma between items. -/
def atFlowEntry (s : Splitting) : Except ReadError Splitting := do
  let s ← s.dropKey
  return { (s.push .flowEntry s.cursor.mark) with cursor := s.cursor.step, keyAllowed := true }

/-- Open a block collection at the cursor if needed; outside of brackets this is allowed only where
a key may start. -/
def openAt (s : Splitting) (kind : TokenKind) : Except ReadError Splitting :=
  if s.inFlow then .ok s
  else if !s.keyAllowed then .error .malformed
  else
    match s.openBlock s.cursor.column with
    | some opened => .ok (opened.push kind s.cursor.mark)
    | none => .ok s

/-- The hyphen of a list item. -/
def atBlockEntry (s : Splitting) : Except ReadError Splitting := do
  let s ← s.openAt .blockSequenceStart
  let s ← s.dropKey
  return { (s.push .blockEntry s.cursor.mark) with cursor := s.cursor.step, keyAllowed := true }

/-- The question mark of a key. -/
def atKey (s : Splitting) : Except ReadError Splitting := do
  let s ← s.openAt .blockMappingStart
  let s ← s.dropKey
  return { (s.push .key s.cursor.mark) with cursor := s.cursor.step, keyAllowed := !s.inFlow }

/-- The colon of a value.  When a word in front of it may be a key, it is one. -/
def atValue (s : Splitting) : Except ReadError Splitting := do
  let mark := s.cursor.mark
  match s.keys.find? (fun entry => entry.1 = s.depth) with
  | some (_, key) =>
      let s := { s with keys := s.keys.filter (fun entry => entry.1 ≠ s.depth) }
      let s := s.insertAt key.token .key key.mark
      let s :=
        if s.inFlow then s
        else
          match s.openBlock key.mark.column with
          | some opened => opened.insertAt key.token .blockMappingStart key.mark
          | none => s
      return { (s.push .value mark) with cursor := s.cursor.step, keyAllowed := false }
  | none =>
      let s ← s.openAt .blockMappingStart
      let s ← s.dropKey
      return { (s.push .value mark) with cursor := s.cursor.step, keyAllowed := !s.inFlow }

/-- A token that may turn out to be a key, read by {lit}`read`. -/
def atWord (s : Splitting) (read : Cursor → Except ReadError (TokenKind × Cursor)) :
    Except ReadError Splitting := do
  let s ← s.saveKey
  let (kind, c) ← read s.cursor
  return { (s.push kind s.cursor.mark) with cursor := c, keyAllowed := false }

/-- An alias. -/
def atAlias (s : Splitting) : Except ReadError Splitting :=
  s.atWord fun c => do
    let (name, c) ← c.anchorName
    return (.alias name, c)

/-- An anchor. -/
def atAnchor (s : Splitting) : Except ReadError Splitting :=
  s.atWord fun c => do
    let (name, c) ← c.anchorName
    return (.anchor name, c)

/-- A tag. -/
def atTag (s : Splitting) : Except ReadError Splitting :=
  s.atWord fun c => do
    let (tag, c) ← c.writtenTag
    return (.tag tag, c)

/-- A quoted scalar. -/
def atQuoted (s : Splitting) (style : QuoteStyle) : Except ReadError Splitting :=
  s.atWord fun c => do
    let (text, c) ← c.quotedScalar style
    return (.scalar text (.quoted style), c)

/-- A block scalar. -/
def atBlockScalar (s : Splitting) (folded : Bool) : Except ReadError Splitting := do
  let s ← s.dropKey
  let (text, c) ← s.cursor.blockScalar folded s.indent
  let style := if folded then ScalarStyle.folded else .literal
  return { (s.push (.scalar text style) s.cursor.mark) with cursor := c, keyAllowed := true }

/-- A plain scalar; a key may follow when it ended a line. -/
def atPlain (s : Splitting) : Except ReadError Splitting := do
  let s ← s.saveKey
  let (text, newLine, c) := s.cursor.plainScalar s.inFlow (s.indent + 1)
  return { (s.push (.scalar text .plain) s.cursor.mark) with cursor := c, keyAllowed := newLine }

/-- Whether a plain scalar can start with a character, given the one behind it. -/
def startsPlain (inFlow : Bool) (ch next : Char) : Bool :=
  !(endsToken ch || "-?:,[]\x7b\x7d#&*!|>'\"%@`".toList.contains ch) ||
    (!endsToken next && (ch == '-' || (!inFlow && (ch == '?' || ch == ':'))))

/-- Read the token at the cursor. -/
def readToken (s : Splitting) : Except ReadError Splitting :=
  let c := s.cursor
  let next := c.peekAt 1
  let lineStart := c.column = 0
  let marksKey := s.inFlow || endsToken next
  if c.rest.isEmpty then s.atEnd
  else
    match c.peek with
    | '%' => if lineStart then s.atDirective else .error .malformed
    | '[' => s.atOpening .flowSequenceStart
    | '\x7b' => s.atOpening .flowMappingStart
    | ']' => s.atClosing .flowSequenceEnd
    | '\x7d' => s.atClosing .flowMappingEnd
    | ',' => s.atFlowEntry
    | '*' => s.atAlias
    | '&' => s.atAnchor
    | '!' => s.atTag
    | '\'' => s.atQuoted .single
    | '"' => s.atQuoted .double
    | '|' => if s.inFlow then .error .malformed else s.atBlockScalar false
    | '>' => if s.inFlow then .error .malformed else s.atBlockScalar true
    | ch =>
        if ch == '-' && lineStart && c.atSeparator then s.atDocumentMark .documentStart
        else if ch == '.' && lineStart && c.atSeparator then s.atDocumentMark .documentEnd
        else if ch == '-' && endsToken next then s.atBlockEntry
        else if ch == '?' && marksKey then s.atKey
        else if ch == ':' && marksKey then s.atValue
        else if startsPlain s.inFlow ch next then s.atPlain
        else .error .malformed

/-- Skip to the next token and read it. -/
def next (s : Splitting) : Except ReadError Splitting := do
  let s ← s.skipToToken.dropStale
  (s.unwind s.cursor.column).readToken

/-- The tokens that are settled when the next token cannot be read: those in front of the first word
that may still turn out to be a key. -/
def settled (s : Splitting) : List Token :=
  match s.skipToToken.dropStale with
  | .error _ => s.tokens
  | .ok s =>
      let s := s.unwind s.cursor.column
      let waiting := s.keys.filter fun entry => !(s.keyAllowed && entry.1 == s.depth)
      s.tokens.take (((waiting.map (·.2.token)).min?).getD s.tokens.length)

end Splitting

/-- The tokens of a text, and the fault that ended them, if there was one. -/
structure Tokens where
  list : List Token
  fault : Option ReadError
deriving DecidableEq, Repr

/-- Split the rest of a text.  Before a fault only the settled tokens can be seen. -/
def splitFrom : Nat → Splitting → Tokens
  | 0, s => ⟨s.tokens, some .malformed⟩
  | fuel + 1, s =>
      match s.next with
      | .ok after =>
          if (after.tokens.getLast?.map (·.kind)) = some .streamEnd then ⟨after.tokens, none⟩
          else splitFrom fuel after
      | .error fault => ⟨s.settled, some fault⟩

/-- The tokens of a text. -/
def tokensOf (text : List Char) : Tokens :=
  if text.all isAllowed then splitFrom (text.length + 2) { cursor := .ofText text }
  else ⟨[], some .malformed⟩

end FormulaLint.Yaml
