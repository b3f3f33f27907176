import FormulaLint.Yaml.Implicit
import FormulaLint.Yaml.Node
import FormulaLint.Yaml.Tokenize

/-!
# From tokens to nodes

The tokens of a text are read into the graph of its one document.  A collection gets its number
before its parts do, so that an alias inside it can refer to it.
-/

namespace FormulaLint.Yaml

/-- The state of reading tokens into nodes. -/
structure Composing where
  tokens : List Token
  fault : Option ReadError
  nodes : Array Node := #[]
  anchors : List (String × Nat) := []
  handles : List (String × String) := []

/-- A step of reading tokens into nodes. -/
abbrev Compose := StateT Composing (Except ReadError)

namespace Compose

/-- Report a fault of the text. -/
def malformed {α : Type} : Compose α :=
  throw .malformed

/-- The next token, which stays.  A text that broke off reports its fault here. -/
def peek : Compose Token := do
  let s ← get
  match s.tokens with
  | token :: _ => return token
  | [] => throw (s.fault.getD .malformed)

/-- The kind of the next token. -/
def peekKind : Compose TokenKind := do
  return (← peek).kind

/-- Step over the next token. -/
def skip : Compose Unit :=
  modify fun s => { s with tokens := s.tokens.drop 1 }

/-- Add a node and tell its number. -/
def add (node : Node) : Compose Nat := do
  let s ← get
  set { s with nodes := s.nodes.push node }
  return s.nodes.size

/-- Change what a node holds. -/
def fill (id : Nat) (content : Content) : Compose Unit :=
  modify fun s => { s with nodes := s.nodes.modify id fun node => { node with content } }

/-- Give a node a name; a name is given only once. -/
def name (anchor : Option String) (id : Nat) : Compose Unit :=
  match anchor with
  | none => return ()
  | some anchor => modify fun s => { s with anchors := (anchor, id) :: s.anchors }

/-- Check that a name is still free. -/
def checkFree (anchor : Option String) : Compose Unit := do
  match anchor with
  | none => return ()
  | some anchor => if ((← get).anchors.lookup anchor).isSome then malformed else return ()

/-- A scalar without text at the next token. -/
def emptyScalar : Compose Nat := do
  add ⟨.null, (← peek).mark, .scalar "" .plain⟩

/-- What precedes the content of a node. -/
structure Properties where
  mark : Mark
  anchor : Option String
  tag : Option WrittenTag
deriving DecidableEq, Repr

/-- Read the anchor and the tag of a node, in either order. -/
def properties : Compose Properties := do
  let first ← peek
  match first.kind with
  | .anchor anchor =>
      skip
      match ← peekKind with
      | .tag tag => skip; return ⟨first.mark, some anchor, some tag⟩
      | _ => return ⟨first.mark, some anchor, none⟩
  | .tag tag =>
      skip
      match ← peekKind with
      | .anchor anchor => skip; return ⟨first.mark, some anchor, some tag⟩
      | _ => return ⟨first.mark, none, some tag⟩
  | _ => return ⟨first.mark, none, none⟩

/-- The full name of a tag; a lone exclamation mark asks for the implied tag. -/
def tagName (tag : Option WrittenTag) : Compose (Option String) := do
  match tag with
  | none => return none
  | some ⟨none, suffix⟩ => return if suffix = "!" then none else some suffix
  | some ⟨some handle, suffix⟩ =>
      match (← get).handles.lookup handle with
      | some meaning =>
          let name := meaning ++ suffix
          return if name = "!" then none else some name
      | none => malformed

/-- A tag with a name, or else another one. -/
def tagOr (name : Option String) (implied : Tag) : Tag :=
  match name with
  | some name => .ofName name
  | none => implied

mutual

/-- Read a node.  Block collections are allowed only outside of brackets; in the value of a block
mapping the items of a list need no deeper indentation. -/
def node (fuel : Nat) (block indentless : Bool) : Compose Nat := do
  match fuel with
  | 0 => malformed
  | fuel + 1 =>
      match ← peekKind with
      | .alias anchor =>
          skip
          match (← get).anchors.lookup anchor with
          | some id => return id
          | none => malformed
      | _ =>
          let p ← properties
          let name ← tagName p.tag
          let token ← peek
          let start (implied : Tag) (content : Content) : Compose Nat := do
            checkFree p.anchor
            let id ← add ⟨tagOr name implied, p.mark, content⟩
            Compose.name p.anchor id
            return id
          match token.kind with
          | .scalar text style =>
              skip
              let implied :=
                if style = .plain || p.tag.isSome then impliedTag text else .text
              start implied (.scalar text style)
          | .flowSequenceStart =>
              let id ← start .list (.sequence [])
              skip
              fill id (.sequence (← flowItems fuel true))
              return id
          | .flowMappingStart =>
              let id ← start .map (.mapping [])
              skip
              fill id (.mapping (← flowEntries fuel true))
              return id
          | kind =>
              if indentless && kind = .blockEntry then
                let id ← start .list (.sequence [])
                fill id (.sequence (← indentlessItems fuel))
                return id
              else if block && kind = .blockSequenceStart then
                let id ← start .list (.sequence [])
                skip
                fill id (.sequence (← blockItems fuel))
                return id
              else if block && kind = .blockMappingStart then
                let id ← start .map (.mapping [])
                skip
                fill id (.mapping (← blockEntries fuel))
                return id
              else if p.anchor.isSome || p.tag.isSome then
                start (impliedTag "") (.scalar "" .plain)
              else malformed

/-- The items of a block sequence up to its end. -/
def blockItems (fuel : Nat) : Compose (List Nat) := do
  match fuel with
  | 0 => malformed
  | fuel + 1 =>
      match ← peekKind with
      | .blockEntry =>
          skip
          let item ← match ← peekKind with
            | .blockEntry | .blockEnd => emptyScalar
            | _ => node fuel true false
          return item :: (← blockItems fuel)
      | .blockEnd => skip; return []
      | _ => malformed

/-- The items of a sequence that is not indented deeper than the mapping around it. -/
def indentlessItems (fuel : Nat) : Compose (List Nat) := do
  match fuel with
  | 0 => malformed
  | fuel + 1 =>
      match ← peekKind with
      | .blockEntry =>
          skip
          let item ← match ← peekKind with
            | .blockEntry | .key | .value | .blockEnd => emptyScalar
            | _ => node fuel true false
          return item :: (← indentlessItems fuel)
      | _ => return []

/-- The entries of a block mapping up to its end. -/
def blockEntries (fuel : Nat) : Compose (List (Nat × Nat)) := do
  match fuel with
  | 0 => malformed
  | fuel + 1 =>
      match ← peekKind with
      | .key =>
          skip
          let key ← match ← peekKind with
            | .key | .value | .blockEnd => emptyScalar
            | _ => node fuel true true
          let value ← blockValue fuel
          return (key, value) :: (← blockEntries fuel)
      | .blockEnd => skip; return []
      | _ => malformed

/-- The value of an entry of a block mapping; it may be missing. -/
def blockValue (fuel : Nat) : Compose Nat := do
  match fuel with
  | 0 => malformed
  | fuel + 1 =>
      match ← peekKind with
      | .value =>
          skip
          match ← peekKind with
          | .key | .value | .blockEnd => emptyScalar
          | _ => node fuel true true
      | _ => emptyScalar

/-- The items of a sequence in brackets up to its end; an entry with a key is a mapping of its
own. -/
def flowItems (fuel : Nat) (first : Bool) : Compose (List Nat) := do
  match fuel with
  | 0 => malformed
  | fuel + 1 =>
      if (← peekKind) = .flowSequenceEnd then
        skip
        return []
      else
        unless first do
          if (← peekKind) = .flowEntry then skip else malformed
        match ← peekKind with
        | .flowSequenceEnd => skip; return []
        | .key =>
            let id ← add ⟨.map, (← peek).mark, .mapping []⟩
            skip
            let key ← match ← peekKind with
              | .value | .flowEntry | .flowSequenceEnd => emptyScalar
              | _ => node fuel false false
            let value ← match ← peekKind with
              | .value =>
                  skip
                  match ← peekKind with
                  | .flowEntry | .flowSequenceEnd => emptyScalar
                  | _ => node fuel false false
              | _ => emptyScalar
            fill id (.mapping [(key, value)])
            return id :: (← flowItems fuel false)
        | _ =>
            let item ← node fuel false false
            return item :: (← flowItems fuel false)

/-- The entries of a mapping in braces up to its end. -/
def flowEntries (fuel : Nat) (first : Bool) : Compose (List (Nat × Nat)) := do
  match fuel with
  | 0 => malformed
  | fuel + 1 =>
      if (← peekKind) = .flowMappingEnd then
        skip
        return []
      else
        unless first do
          if (← peekKind) = .flowEntry then skip else malformed
        match ← peekKind with
        | .flowMappingEnd => skip; return []
        | .key =>
            skip
            let key ← match ← peekKind with
              | .value | .flowEntry | .flowMappingEnd => emptyScalar
              | _ => node fuel false false
            let value ← match ← peekKind with
              | .value =>
                  skip
                  match ← peekKind with
                  | .flowEntry | .flowMappingEnd => emptyScalar
                  | _ => node fuel false false
              | _ => emptyScalar
            return (key, value) :: (← flowEntries fuel false)
        | _ =>
            let key ← node fuel false false
            let value ← emptyScalar
            return (key, value) :: (← flowEntries fuel false)

end

/-! ## Documents -/

/-- The tag handles that need no directive. -/
def standardHandles : List (String × String) :=
  [("!", "!"), ("!!", Tag.commonStart)]

/-- Read the directives in front of a document.  A document may state its version once, which has to
be 1, and define each tag handle once. -/
def directives (fuel : Nat) (versioned : Bool) (handles : List (String × String)) :
    Compose (List (String × String)) := do
  match fuel with
  | 0 => malformed
  | fuel + 1 =>
      match ← peekKind with
      | .directive directive =>
          skip
          match directive with
          | .version major =>
              if versioned || major ≠ 1 then malformed else directives fuel true handles
          | .tagHandle handle meaning =>
              if (handles.lookup handle).isSome then malformed
              else directives fuel versioned (handles ++ [(handle, meaning)])
          | .other => directives fuel versioned handles
      | _ => return handles

/-- Step over marks that end documents. -/
def skipDocumentEnds (fuel : Nat) : Compose Unit := do
  match fuel with
  | 0 => malformed
  | fuel + 1 =>
      if (← peekKind) = .documentEnd then
        skip
        skipDocumentEnds fuel

/-- Read the content of a document behind its start mark. -/
def content (fuel : Nat) : Compose Nat := do
  match ← peekKind with
  | .directive _ | .documentStart | .documentEnd | .streamEnd => emptyScalar
  | _ => node fuel true false

/-- Read the start of a document behind its directives, and its content. -/
def explicitDocument (fuel : Nat) : Compose Nat := do
  let handles ← directives fuel false []
  let missing := standardHandles.filter fun handle => (handles.lookup handle.1).isNone
  modify fun s => { s with handles := handles ++ missing }
  if (← peekKind) = .documentStart then
    skip
    content fuel
  else malformed

/-- Read the only document of a stream, if there is one. -/
def stream (fuel : Nat) : Compose (Option Nat) := do
  let root ← match ← peekKind with
    | .streamEnd => return none
    | .directive _ | .documentStart => explicitDocument fuel
    | _ =>
        modify fun s => { s with handles := standardHandles }
        node fuel true false
  skipDocumentEnds fuel
  if (← peekKind) = .streamEnd then return some root else malformed

end Compose

/-- The graph of the one document of a text, if there is one. -/
def compose (text : List Char) : Except ReadError (Option Graph) := do
  let tokens := tokensOf text
  let fuel := 4 * tokens.list.length + 8
  let (root, s) ← (Compose.stream fuel).run { tokens := tokens.list, fault := tokens.fault }
  return root.map fun root => ⟨s.nodes, root⟩

end FormulaLint.Yaml
