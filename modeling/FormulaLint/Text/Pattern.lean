/-!
# Patterns of characters

A pattern describes a set of texts: single characters of a class, sequences, choices and
repetitions.  A text is tried one character at a time: the remainder of a pattern after a character
is again a pattern, and a text fits when the last remainder allows the empty text.
-/

namespace FormulaLint.Text

/-- A set of texts. -/
inductive Pattern where
  | nothing
  | empty
  | one (member : Char → Bool)
  | both (first second : Pattern)
  | either (left right : Pattern)
  | many (item : Pattern)

namespace Pattern

/-- Whether the empty text fits. -/
def nullable : Pattern → Bool
  | nothing => false
  | empty => true
  | one _ => false
  | both p q => p.nullable && q.nullable
  | either p q => p.nullable || q.nullable
  | many _ => true

/-- One pattern after the other, in a short form. -/
def followed : Pattern → Pattern → Pattern
  | nothing, _ => nothing
  | empty, q => q
  | p, q => both p q

/-- A choice of patterns, in a short form. -/
def orElse : Pattern → Pattern → Pattern
  | nothing, q => q
  | p, nothing => p
  | p, q => either p q

/-- What is left of a pattern after a character. -/
def remainder (c : Char) : Pattern → Pattern
  | nothing => nothing
  | empty => nothing
  | one member => if member c then empty else nothing
  | both p q =>
      let rest := (p.remainder c).followed q
      if p.nullable then rest.orElse (q.remainder c) else rest
  | either p q => (p.remainder c).orElse (q.remainder c)
  | many p => (p.remainder c).followed (many p)

/-- Whether a text fits a pattern as a whole. -/
def fits (p : Pattern) (cs : List Char) : Bool :=
  (cs.foldl (fun q c => q.remainder c) p).nullable

/-- The pattern of exactly one character. -/
def char (c : Char) : Pattern :=
  one (· == c)

/-- The pattern of exactly one text. -/
def word (s : String) : Pattern :=
  s.toList.foldr (fun c p => both (char c) p) empty

/-- The pattern of any of the given texts. -/
def words (list : List String) : Pattern :=
  list.foldr (fun s p => either (word s) p) nothing

/-- One or more items. -/
def oneOrMore (p : Pattern) : Pattern :=
  both p (many p)

/-- An item or nothing. -/
def optional (p : Pattern) : Pattern :=
  either empty p

/-- Patterns one after the other. -/
def sequence (list : List Pattern) : Pattern :=
  list.foldr both empty

/-- Any of the given patterns. -/
def choice (list : List Pattern) : Pattern :=
  list.foldr either nothing

end Pattern

end FormulaLint.Text
