import FormulaLint.Placement
import FormulaLint.Token.Recognise

/-!
# Lexing

Lexing splits a formula text into tokens and comments.  Blanks between them are dropped; nothing
else is.  A word that stands for an operator counts as one only when blanks or the ends of the
text surround it.
-/

namespace FormulaLint

/-- A recognised piece of text with its place. -/
structure Piece where
  item : Item
  lexeme : String
  span : Span
deriving DecidableEq, Repr

namespace Piece

/-- The token of a piece that is not a comment. -/
def token? (piece : Piece) : Option Token :=
  match piece.item with
  | .comment => none
  | .token payload => some ⟨payload, piece.lexeme, piece.span⟩

/-- The comment of a piece that is one. -/
def comment? (piece : Piece) : Option Comment :=
  match piece.item with
  | .comment => some ⟨piece.lexeme, piece.span⟩
  | .token _ => none

end Piece

/-- Whether a blank, or nothing, stands at a place of the text. -/
def blankOrEnd : Option Char → Bool
  | none => true
  | some c => Text.isBlank c

/-- What an unquoted word stands for, given whether blanks surround it. -/
def wordPayload (word : String) (delimited : Bool) : Payload :=
  if word = "true" then .logical true
  else if word = "false" then .logical false
  else
    match Operator.ofWord? word with
    | some op => if delimited then .operator op else .identifier word false
    | none => .identifier word false

/-- Give words their meaning; every other item stays what it is. -/
def Item.settle (item : Item) (delimited : Bool) : Item :=
  match item with
  | .token (.identifier name false) => .token (wordPayload name delimited)
  | other => other

/-- The pieces of a text.  The character in front of the text and the offset of its first character
are given. -/
def pieces (p : Profile) (index : LineIndex) (before : Option Char) (offset : Nat) :
    List Char → List Piece
  | [] => []
  | c :: rest =>
      if Text.isBlank c then pieces p index (some c) (offset + 1) rest
      else
        let found := recognise p c rest
        let lexeme := c :: rest.take found.extra
        let behind := rest.drop found.extra
        let stop := offset + lexeme.length
        ⟨found.item.settle (blankOrEnd before && blankOrEnd behind.head?), String.ofList lexeme,
          index.span offset stop⟩ :: pieces p index lexeme.getLast? stop behind
termination_by text => text.length
decreasing_by
  · simp
  · simp only [List.length_drop, List.length_cons]
    omega

/-- The outcome of lexing a text.  The place behind the last character stands for the end. -/
structure Lexed where
  tokens : List Token
  comments : List Comment
  stop : Span
deriving DecidableEq, Repr

namespace Lexed

/-- One diagnostic for every error token, in source order. -/
def diagnostics (lexed : Lexed) : List Diagnostic :=
  lexed.tokens.filterMap Token.diagnostic?

end Lexed

/-- Split a formula text into tokens and comments. -/
def lex (p : Profile) (text : List Char) (placement : Placement) : Lexed :=
  let index := LineIndex.ofText text placement
  let all := pieces p index none 0 text
  ⟨all.filterMap Piece.token?, all.filterMap Piece.comment?, index.span text.length text.length⟩

end FormulaLint
