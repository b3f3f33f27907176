/-!
# Operators

The operators of formulas, their spellings and their binding strength.  Binary operators stand on
nine levels, the loosest first; prefix operators bind tighter than all of them, member access and
the postfix percent sign tighter still.

Main results:

- Theorem {lit}`Operator.ofSpelling_spelling`: a known operator is found by its spelling.
-/

namespace FormulaLint

/-- How operators of one level group without parentheses. -/
inductive Associativity where
  | left
  | right
  | none
deriving DecidableEq, Repr

/-- An operator.  Trees that are not read from a text may hold spellings that no formula knows. -/
inductive Operator where
  | orSign
  | orWord
  | andSign
  | andWord
  | membership
  | exactMembership
  | equal
  | notEqual
  | less
  | lessEqual
  | greater
  | greaterEqual
  | concatenate
  | plus
  | minus
  | times
  | divide
  | power
  | notSign
  | notWord
  | percent
  | dot
  | unknown (spelling : String)
deriving DecidableEq, Repr

namespace Operator

/-- How an operator is written. -/
def spelling : Operator → String
  | orSign => "||"
  | orWord => "Or"
  | andSign => "&&"
  | andWord => "And"
  | membership => "in"
  | exactMembership => "exactin"
  | equal => "="
  | notEqual => "<>"
  | less => "<"
  | lessEqual => "<="
  | greater => ">"
  | greaterEqual => ">="
  | concatenate => "&"
  | plus => "+"
  | minus => "-"
  | times => "*"
  | divide => "/"
  | power => "^"
  | notSign => "!"
  | notWord => "Not"
  | percent => "%"
  | dot => "."
  | unknown spelling => spelling

/-- Every operator that formulas know. -/
def known : List Operator :=
  [orSign, orWord, andSign, andWord, membership, exactMembership, equal, notEqual, less, lessEqual,
   greater, greaterEqual, concatenate, plus, minus, times, divide, power, notSign, notWord, percent,
   dot]

/-- The operator with a spelling. -/
def ofSpelling (s : String) : Operator :=
  (known.find? (·.spelling = s)).getD (unknown s)

/-- A known operator is found by its spelling. -/
theorem ofSpelling_spelling {op : Operator} (h : op ∈ known) : ofSpelling op.spelling = op := by
  simp only [known, List.mem_cons, List.not_mem_nil, or_false] at h
  rcases h with rfl | rfl | rfl | rfl | rfl | rfl | rfl | rfl | rfl | rfl | rfl | rfl | rfl | rfl |
    rfl | rfl | rfl | rfl | rfl | rfl | rfl | rfl <;> rfl

/-- The level of a binary operator, counted from the loosest, and its grouping. -/
def binding? : Operator → Option (Nat × Associativity)
  | orSign | orWord => some (0, .left)
  | andSign | andWord => some (1, .left)
  | membership | exactMembership => some (2, .none)
  | equal | notEqual => some (3, .left)
  | less | lessEqual | greater | greaterEqual => some (4, .none)
  | concatenate => some (5, .left)
  | plus | minus => some (6, .left)
  | times | divide => some (7, .left)
  | power => some (8, .right)
  | notSign | notWord | percent | dot | unknown _ => none

/-- Whether an operator may stand in front of its operand. -/
def isPrefix : Operator → Bool
  | minus | notSign | notWord => true
  | _ => false

/-- Whether an operator stands behind its operand. -/
def isPostfix : Operator → Bool
  | percent => true
  | _ => false

/-- Whether an operator joins or negates conditions. -/
def isLogical : Operator → Bool
  | orSign | orWord | andSign | andWord | notSign | notWord => true
  | _ => false

/-- The operator that a word stands for. -/
def ofWord? (word : String) : Option Operator :=
  if word = "And" then some andWord
  else if word = "Or" then some orWord
  else if word = "Not" then some notWord
  else if word = "in" then some membership
  else if word = "exactin" then some exactMembership
  else none

end Operator

/-- The words that stand for operators. -/
def operatorWords : List String :=
  ["And", "Not", "Or", "exactin", "in"]

/-! ## Levels of rendered expressions -/

/-- The level of a chain of expressions, looser than every operator. -/
def chainLevel : Int := -1

/-- The level of a prefix operator. -/
def prefixLevel : Int := 9

/-- The level of a member access. -/
def memberLevel : Int := 10

/-- The level of a postfix operator. -/
def postfixLevel : Int := 11

/-- The level of everything that needs no parentheses. -/
def primaryLevel : Int := 12

end FormulaLint
