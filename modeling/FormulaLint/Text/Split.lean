/-!
# Splitting texts

A text is cut at every occurrence of a separator character; there is always one piece more than
there are separators.
-/

namespace FormulaLint.Text

/-- The pieces of a text between separators. -/
def split (separator : Char) : List Char → List (List Char)
  | [] => [[]]
  | c :: rest =>
      if c = separator then [] :: split separator rest
      else
        match split separator rest with
        | [] => [[c]]
        | piece :: pieces => (c :: piece) :: pieces

end FormulaLint.Text
