import FormulaLint.Yaml.Cursor

/-!
# Tags

A tag says what sort of value a node stands for.  It is written in full between angle brackets, or
as a handle, which a directive may define, followed by a suffix.  Bytes of a tag may be written as
escapes after a percent sign.
-/

namespace FormulaLint.Yaml

/-- A tag as it is written: a handle, if it has one, and a suffix. -/
structure WrittenTag where
  handle : Option String
  suffix : String
deriving DecidableEq, Repr

/-- What the tag of a node says. -/
inductive Tag where
  | null
  | truth
  | whole
  | fraction
  | binary
  | timestamp
  | orderedMap
  | pairs
  | set
  | text
  | list
  | map
  | merge
  | value
  | other (name : String)
deriving DecidableEq, Repr

namespace Tag

/-- What all common tags start with. -/
def commonStart : String := "tag:yaml.org,2002:"

/-- The common tags with the last parts of their names. -/
def common : List (String × Tag) :=
  [("null", null), ("bool", truth), ("int", whole), ("float", fraction), ("binary", binary),
   ("timestamp", timestamp), ("omap", orderedMap), ("pairs", pairs), ("set", set), ("str", text),
   ("seq", list), ("map", map), ("merge", merge), ("value", value)]

/-- The tag with a full name. -/
def ofName (name : String) : Tag :=
  match common.find? (fun entry => commonStart ++ entry.1 = name) with
  | some entry => entry.2
  | none => other name

end Tag

/-- The text that bytes encode, if they do. -/
def textOfBytes? (bytes : List Nat) : Option String :=
  String.fromUTF8? ⟨(bytes.map (·.toUInt8)).toArray⟩

namespace Cursor

/-- Whether a character may stand in a tag as itself. -/
def isTagChar (c : Char) : Bool :=
  c.isAlphanum || "-;/?:@&=+$,_.!~*'()[]".toList.contains c

/-- The bytes of the escapes that start here. -/
def tagEscapes : Nat → List Nat → Cursor → Except ReadError (List Nat × Cursor)
  | 0, _, _ => .error .malformed
  | fuel + 1, bytes, c =>
      if c.peek = '%' then
        let c := c.step
        let digits := c.rest.take 2
        if digits.length = 2 && digits.all isHexDigit then
          tagEscapes fuel (bytes ++ [hexNumber digits]) (c.advance 2)
        else .error .malformed
      else .ok (bytes, c)

/-- The rest of a tag from here on. -/
def tagText : Nat → List Char → Cursor → Except ReadError (List Char × Cursor)
  | 0, _, _ => .error .malformed
  | fuel + 1, text, c => do
      let (word, c) := c.takeWhile isTagChar
      if c.peek = '%' then
        let (bytes, c) ← tagEscapes (c.rest.length + 1) [] c
        match textOfBytes? bytes with
        | some escaped => tagText fuel (text ++ word ++ escaped.toList) c
        | none => .error .malformed
      else .ok (text ++ word, c)

/-- A piece of a tag that starts here; it has at least one character or escape. -/
def tagPiece (c : Cursor) : Except ReadError (String × Cursor) :=
  if isTagChar c.peek || c.peek == '%' then do
    let (text, c) ← tagText (c.rest.length + 1) [] c
    return (String.ofList text, c)
  else .error .malformed

/-- A tag handle that starts here: an exclamation mark, or a name between two of them. -/
def tagHandle (c : Cursor) : Except ReadError (String × Cursor) :=
  if c.peek ≠ '!' then .error .malformed
  else if c.peekAt 1 = ' ' then .ok ("!", c.step)
  else
    let name := (c.rest.drop 1).takeWhile isNameChar
    if c.peekAt (name.length + 1) = '!' then
      .ok (String.ofList ('!' :: name ++ ['!']), c.advance (name.length + 2))
    else .error .malformed

/-- Whether a second exclamation mark follows in the word that starts here. -/
def hasHandle (c : Cursor) : Bool :=
  ((c.rest.drop 1).takeWhile (fun ch => !endsWord ch)).contains '!'

/-- A tag that starts here. -/
def writtenTag (c : Cursor) : Except ReadError (WrittenTag × Cursor) := do
  let (tag, c) ←
    if c.peekAt 1 = '<' then do
      let (suffix, c) ← (c.advance 2).tagPiece
      if c.peek = '>' then pure (⟨none, suffix⟩, c.step) else .error .malformed
    else if endsToken (c.peekAt 1) then pure (⟨none, "!"⟩, c.step)
    else if c.hasHandle then do
      let (handle, c) ← c.tagHandle
      let (suffix, c) ← c.tagPiece
      pure (⟨some handle, suffix⟩, c)
    else do
      let (suffix, c) ← c.step.tagPiece
      pure (⟨some "!", suffix⟩, c)
  if endsWord c.peek then return (tag, c) else .error .malformed

end Cursor

end FormulaLint.Yaml
