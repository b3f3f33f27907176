/-!
# Texts between quotes

A text between quotes writes every quote of its own twice.  Reading such a text takes doubled
quotes for content as long as a closing quote is still to come; when none is, the last doubled
quote that was read closes the text with its first half.

Main results:

- Theorem {lit}`closing_double_append`: what {lit}`double` writes is read back, provided that the
  text behind the closing quote does not start with a quote.
-/

namespace FormulaLint.Text

/-- Write every quote twice. -/
def double (quote : Char) : List Char → List Char
  | [] => []
  | c :: rest => if c = quote then quote :: quote :: double quote rest else c :: double quote rest

/-- A text between quotes, its own quotes doubled. -/
def enclose (quote : Char) (cs : List Char) : List Char :=
  quote :: (double quote cs ++ [quote])

/-- Read up to the closing quote: the content with doubled quotes undone, and the number of
characters read, closing quote included.  The result is {lit}`none` when no quote is left. -/
def closing (quote : Char) : List Char → Option (List Char × Nat)
  | [] => none
  | c :: rest =>
      if c = quote then
        match rest with
        | [] => some ([], 1)
        | next :: behind =>
            if next = quote then
              match closing quote behind with
              | some (content, count) => some (quote :: content, count + 2)
              | none => some ([], 1)
            else some ([], 1)
      else
        match closing quote rest with
        | some (content, count) => some (c :: content, count + 1)
        | none => none

@[simp] theorem double_nil (quote : Char) : double quote [] = [] := rfl

/-- A quote is written twice. -/
@[simp] theorem double_cons_self (quote : Char) (rest : List Char) :
    double quote (quote :: rest) = quote :: quote :: double quote rest := by
  simp [double]

/-- Any other character is written once. -/
theorem double_cons_of_ne {quote c : Char} (h : c ≠ quote) (rest : List Char) :
    double quote (c :: rest) = c :: double quote rest := by
  simp [double, h]

/-- A character other than the quote belongs to the content. -/
theorem closing_cons_of_ne {quote c : Char} (h : c ≠ quote) (rest : List Char) :
    closing quote (c :: rest) =
      (closing quote rest).map fun read => (c :: read.1, read.2 + 1) := by
  rw [closing.eq_def]
  cases hr : closing quote rest <;> simp [h, hr]

/-- A quote followed by something else closes the text. -/
theorem closing_quote_of_head_ne {quote : Char} {behind : List Char}
    (h : behind.head? ≠ some quote) : closing quote (quote :: behind) = some ([], 1) := by
  cases behind with
  | nil => simp [closing]
  | cons next rest =>
      have hne : next ≠ quote := by simpa using h
      simp [closing, hne]

/-- What {lit}`double` writes is read back, closing quote included. -/
theorem closing_double_append {quote : Char} (cs behind : List Char)
    (h : behind.head? ≠ some quote) :
    closing quote (double quote cs ++ quote :: behind) =
      some (cs, (double quote cs).length + 1) := by
  induction cs with
  | nil => simpa using closing_quote_of_head_ne h
  | cons c rest ih =>
      by_cases hc : c = quote
      · subst hc
        simp [closing, ih]
      · rw [double_cons_of_ne hc, List.cons_append, closing_cons_of_ne hc, ih]
        simp

end FormulaLint.Text
