import FormulaLint.Locale
import FormulaLint.Text.Doubled
import FormulaLint.Text.IdentifierPart
import FormulaLint.Text.IdentifierStart
import FormulaLint.Token.Basic

/-!
# Recognising one token

A recogniser looks at a text that does not start with a blank.  The alternatives are tried in
order and the first one that matches wins: comments before the division sign, names with a scope
before plain names and brackets, numbers before the point.  When none matches, the text up to the
next boundary is an error token.

Every recogniser gets the first character apart from the rest and answers how many of the rest it
takes, so a match is never empty.

Main results:

- Theorem {lit}`extra_closing_le`: a closed text takes no more characters than there are.
-/

namespace FormulaLint

/-- What was recognised. -/
inductive Item where
  | comment
  | token (payload : Payload)
deriving DecidableEq, Repr

/-- What was recognised, and how many characters behind the first one belong to it. -/
structure Match where
  item : Item
  extra : Nat
deriving DecidableEq, Repr

/-- A match of a token. -/
def Match.token (payload : Payload) (extra : Nat) : Match :=
  ⟨.token payload, extra⟩

/-! ## Comments -/

/-- The number of characters up to the end of a block comment, its closing mark included. -/
def blockCommentLength? : List Char → Option Nat
  | [] => none
  | c :: rest =>
      if c = '*' && rest.head? = some '/' then some 2
      else (blockCommentLength? rest).map (· + 1)

/-- The number of characters up to the end of a line comment.  A backslash in front of a line feed
carries the comment on to the next line. -/
def lineCommentLength : List Char → Nat
  | [] => 0
  | '\\' :: '\n' :: rest => lineCommentLength rest + 2
  | c :: rest => if c = '\n' then 0 else lineCommentLength rest + 1

/-- A block comment or a line comment. -/
def comment? (c : Char) (rest : List Char) : Option Match :=
  if c = '/' then
    match rest with
    | '*' :: body => (blockCommentLength? body).map fun n => ⟨.comment, n + 1⟩
    | '/' :: body => some ⟨.comment, lineCommentLength body + 1⟩
    | _ => none
  else none

/-- A block comment without its closing mark ends at the end of its line. -/
def unterminatedComment? (c : Char) (rest : List Char) : Option Match :=
  if c = '/' && rest.head? = some '*' then
    some (.token (.error .unterminatedComment) (rest.takeWhile (· != '\n')).length)
  else none

/-! ## Texts and names -/

/-- A text literal. -/
def textLiteral? (c : Char) (rest : List Char) : Option Match :=
  if c = '"' then
    (Text.closing '"' rest).map fun (content, n) => .token (.text (String.ofList content)) n
  else none

/-- A quote that is never closed takes the text up to the next blank. -/
def unterminated? (quote : Char) (error : LexicalError) (c : Char) (rest : List Char) :
    Option Match :=
  if c = quote then
    some (.token (.error error) (rest.takeWhile fun d => !Text.isBlank d).length)
  else none

/-- Marks that a name may hold although they have no width: the soft hyphen, zero-width joiners,
direction marks, the word joiner and the byte order mark. -/
def isFormatMark (c : Char) : Bool :=
  ['\u00ad', '\u200b', '\u200c', '\u200d', '\u200e', '\u200f', '\u2060', '\ufeff'].contains c

/-- Whether a character may continue an unquoted name. -/
def continuesName (c : Char) : Bool :=
  Text.isIdentifierPart c || isFormatMark c

/-- A name at the start of a text. -/
structure NameMatch where
  name : String
  quoted : Bool
  length : Nat
deriving DecidableEq, Repr

/-- A quoted or plain name at the start of a text. -/
def name? : List Char → Option NameMatch
  | [] => none
  | c :: rest =>
      if c = '\'' then
        (Text.closing '\'' rest).map fun (content, n) => ⟨String.ofList content, true, n + 1⟩
      else if Text.isIdentifierStart c then
        let part := rest.takeWhile continuesName
        some ⟨String.ofList (c :: part), false, part.length + 1⟩
      else none

/-- The name between {lit}`[@` and {lit}`]`, and the number of characters up to the bracket's end. -/
def bracketName? : List Char → Option (String × Nat)
  | '[' :: '@' :: rest =>
      match name? rest with
      | some inner =>
          if (rest.drop inner.length).head? = some ']' then some (inner.name, inner.length + 3)
          else none
      | none => none
  | _ => none

/-- A name that says where to look: a name of the application as a whole, or a field of a named
source. -/
def disambiguated? (c : Char) (rest : List Char) : Option Match :=
  let text := c :: rest
  match name? text with
  | some scope =>
      (bracketName? (text.drop scope.length)).map fun (name, n) =>
        .token (.field scope.name name) (scope.length + n - 1)
  | none => (bracketName? text).map fun (name, n) => .token (.global name) (n - 1)

/-- A name. -/
def identifier? (c : Char) (rest : List Char) : Option Match :=
  (name? (c :: rest)).map fun m => .token (.identifier m.name m.quoted) (m.length - 1)

/-! ## Numbers -/

/-- The number of digits at the start of a text. -/
def digitCount (cs : List Char) : Nat :=
  (cs.takeWhile Char.isDigit).length

/-- The length of the exponent at the start of a text, zero when there is none. -/
def exponentLength : List Char → Nat
  | [] => 0
  | c :: rest =>
      if c = 'e' || c = 'E' then
        let sign := match rest with
          | '+' :: _ | '-' :: _ => 1
          | _ => 0
        match digitCount (rest.drop sign) with
        | 0 => 0
        | n => n + sign + 1
      else 0

/-- The length of the digits and fraction at the start of a text, zero when there is no number.
With a decimal point, digits may be missing on one side of it. -/
def mantissaLength (p : Profile) (cs : List Char) : Nat :=
  let whole := digitCount cs
  let behind := cs.drop whole
  match p with
  | .dotDecimal =>
      match behind with
      | '.' :: rest =>
          let fraction := digitCount rest
          if whole = 0 && fraction = 0 then 0 else whole + 1 + fraction
      | _ => whole
  | .commaDecimal =>
      match behind with
      | ',' :: rest =>
          let fraction := digitCount rest
          if whole = 0 || fraction = 0 then whole else whole + 1 + fraction
      | _ => whole

/-- A number. -/
def number? (p : Profile) (c : Char) (rest : List Char) : Option Match :=
  let text := c :: rest
  match mantissaLength p text with
  | 0 => none
  | n =>
      let length := n + exponentLength (text.drop n)
      let digits := (text.take length).map fun d => if d = ',' then '.' else d
      some (.token (.number (String.ofList digits)) (length - 1))

/-! ## Operators and separators -/

/-- An operator; of two that match, the longer one. -/
def operator? (c : Char) (rest : List Char) : Option Match :=
  let next := rest.head?
  let long (op : Operator) : Option Match := some (.token (.operator op) 1)
  let short (op : Operator) : Option Match := some (.token (.operator op) 0)
  match c with
  | '&' => if next = some '&' then long .andSign else short .concatenate
  | '|' => if next = some '|' then long .orSign else none
  | '<' =>
      if next = some '=' then long .lessEqual
      else if next = some '>' then long .notEqual
      else short .less
  | '>' => if next = some '=' then long .greaterEqual else short .greater
  | '+' => short .plus
  | '-' => short .minus
  | '*' => short .times
  | '/' => short .divide
  | '^' => short .power
  | '=' => short .equal
  | '!' => short .notSign
  | '%' => short .percent
  | '.' => short .dot
  | _ => none

/-- A separator; of two that match, the longer one. -/
def separator? (p : Profile) (c : Char) (rest : List Char) : Option Match :=
  let one (sep : Separator) : Option Match := some (.token (.separator sep) 0)
  match c with
  | '(' => one (.opening .parenthesis)
  | ')' => one (.closing .parenthesis)
  | '\x7b' => one (.opening .brace)
  | '\x7d' => one (.closing .brace)
  | '[' => one (.opening .bracket)
  | ']' => one (.closing .bracket)
  | ':' => one .colon
  | ',' =>
      match p with
      | .dotDecimal => one .list
      | .commaDecimal => none
  | ';' =>
      match p with
      | .dotDecimal => one .chaining
      | .commaDecimal =>
          if rest.head? = some ';' then some (.token (.separator .chaining) 1) else one .list
  | _ => none

/-! ## Everything else -/

/-- Characters at which a run of invalid characters stops. -/
def isBoundary (c : Char) : Bool :=
  "+-*/^&=<>!%.,;:()\x7b\x7d[]\"'|@".toList.contains c

/-- A run of invalid characters: the first one, and all up to the next blank or boundary. -/
def invalidRun (rest : List Char) : Match :=
  .token (.error .invalidCharacters)
    (rest.takeWhile fun d => !Text.isBlank d && !isBoundary d).length

/-- The token or comment at the start of a text that does not start with a blank. -/
def recognise (p : Profile) (c : Char) (rest : List Char) : Match :=
  let alternatives : List (Char → List Char → Option Match) :=
    [comment?, unterminatedComment?, textLiteral?, unterminated? '"' .unterminatedText,
     disambiguated?, identifier?, unterminated? '\'' .unterminatedName, number? p, operator?,
     separator? p]
  (alternatives.findSome? fun alternative => alternative c rest).getD (invalidRun rest)

/-- A closed text takes no more characters than there are. -/
theorem extra_closing_le {quote : Char} {cs content : List Char} {n : Nat}
    (h : Text.closing quote cs = some (content, n)) : n ≤ cs.length := by
  fun_induction Text.closing quote cs generalizing content n <;> simp_all <;> grind

end FormulaLint
