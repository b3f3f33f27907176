import FormulaLint.Proofs.Parentheses.Marks
import FormulaLint.Proofs.Parentheses.Sizes
import FormulaLint.Proofs.RoundTrip.Expressions

/-!
# The tokens that are spelled for an expression

What is written for an expression when only some of the pairs of parentheses are kept spells tokens
whose kinds follow from those of its parts.  They are matched and hold the words of the expression,
whichever pairs are kept.

Main results:

- Theorem {lit}`Expr.spelled_eq`: the tokens of an expression by those of its children.
- Theorem {lit}`Expr.matched_spelled` and {lit}`Expr.wordCount_spelled`: they are matched and hold
  its words.
- Theorem {lit}`Expr.readable_spelled`: they are readable if its numbers are.
-/

namespace FormulaLint

/-- The payload of the token that is written for a literal. -/
def Literal.payload : Literal → Payload
  | logical value => .logical value
  | number _ written => .number (String.ofList (plainNumber written.toList))
  | text value => .text value

namespace Expr

/-- The tokens of an expression, given those of its children. -/
def arranged (parts : List (List Kind)) : Expr → List Kind
  | literal value _ => [value.payload.kind]
  | name _ _ segments _ => List.replicate (1 + 2 * segments.length) (.word true)
  | member _ segments _ => parts.flatten ++ List.replicate (2 * segments.length) (.word true)
  | call _ _ qualifiers _ =>
      List.replicate (1 + 2 * qualifiers.length) (.word true) ++
        .opening :: (joined parts ++ [.closing])
  | record _ _ =>
      .word true :: (joined (parts.map fun ks => [.word true, .word true] ++ ks) ++ [.word true])
  | table _ _ => .word true :: (joined parts ++ [.word true])
  | unary op _ _ =>
      if op.isPostfix then parts.flatten ++ [.word true] else .word true :: parts.flatten
  | binary _ _ _ _ | chain _ _ => joined parts
  | hole => []

/-- The tokens of an expression when only some of the pairs are written. -/
def spelled (p : Profile) (keep : Path → Bool) (here : Path) (e : Expr) : List Kind :=
  e.arranged (e.children.attach.zipIdx.map fun child =>
    let inner := child.1.1.spelled p keep (here ++ [child.2])
    if (child.1.1.render p).level < e.floor child.2 ∧ keep (here ++ [child.2]) = true then
      .opening :: (inner ++ [.closing])
    else inner)
termination_by sizeOf e
decreasing_by exact sizeOf_lt_of_mem_children child.1.2

/-- The tokens of a child with its parentheses, if they are written. -/
def spelledChild (p : Profile) (keep : Path → Bool) (here : Path) (e : Expr) (child : Expr × Nat) :
    List Kind :=
  let inner := child.1.spelled p keep (here ++ [child.2])
  if (child.1.render p).level < e.floor child.2 ∧ keep (here ++ [child.2]) = true then
    .opening :: (inner ++ [.closing])
  else inner

section

variable {p : Profile} {keep : Path → Bool} {here : Path} {e : Expr} {parts : List (List Kind)}

/-- The tokens of an expression by those of its children. -/
theorem spelled_eq (e : Expr) : e.spelled p keep here =
    e.arranged (e.children.zipIdx.map (e.spelledChild p keep here)) := by
  have hchildren : e.children.zipIdx =
      e.children.attach.zipIdx.map fun child => (child.1.1, child.2) := by
    conv => lhs; rw [← List.attach_map_subtype_val e.children, List.zipIdx_map]
    rfl
  rw [spelled, hchildren, List.map_map]
  rfl

/-- What is arranged of matched parts is matched. -/
theorem matched_arranged (e : Expr) (h : ∀ ks ∈ parts, Matched ks) : Matched (e.arranged parts) := by
  have hflatten : Matched parts.flatten := by
    induction parts with
    | nil => exact .nil
    | cons ks parts ih =>
        exact (h ks (by simp)).append (ih fun ks' hks' => h ks' (by simp [hks']))
  have hjoined := Matched.joined h
  have hword := Matched.word true
  cases e with
  | literal value span =>
      cases value <;> exact .word _
  | name _ _ segments span => exact .replicate _ _
  | member base segments span => exact hflatten.append (.replicate _ _)
  | call function arguments qualifiers span =>
      exact (Matched.replicate _ _).append hjoined.enclosed
  | record fields span =>
      have hfields := Matched.joined (List.forall_mem_map.mpr fun ks hks =>
        ((h ks hks).cons true).cons true)
      exact (hfields.append hword).cons true
  | table elements span => exact (hjoined.append hword).cons true
  | unary op operand span =>
      rw [arranged]
      split
      · exact hflatten.append hword
      · exact hflatten.cons true
  | binary _ _ _ _ | chain _ _ => exact hjoined
  | hole => exact .nil

/-- The tokens of an expression are matched. -/
theorem matched_spelled (e : Expr) : Matched (e.spelled p keep here) := by
  induction e using children_induct generalizing here with
  | step e ih =>
      rw [spelled_eq]
      refine matched_arranged e (List.forall_mem_map.mpr fun child hchild => ?_)
      have hinner := @ih child.1 (List.fst_mem_of_mem_zipIdx hchild) (here ++ [child.2])
      rw [spelledChild]
      split
      · exact hinner.enclosed
      · exact hinner

/-- The tokens of a child are matched. -/
theorem matched_spelledChild (child : Expr × Nat) : Matched (e.spelledChild p keep here child) := by
  have hinner : Matched (child.1.spelled p keep (here ++ [child.2])) := matched_spelled child.1
  rw [spelledChild]
  split
  · exact hinner.enclosed
  · exact hinner

/-- Joined parts that hold the words of some expressions. -/
theorem wordCount_joined_parts {es : List Expr} (h : parts.map wordCount = es.map size) :
    wordCount (joined parts) = totalSize es - 1 := by
  by_cases hparts : parts = []
  · subst hparts
    obtain rfl := List.map_eq_nil_iff.mp h.symm
    rfl
  · have hcount := wordCount_joined hparts
    have hsum := congrArg (fun counts => (counts.map (· + 1)).sum) h
    simp only [List.map_map] at hsum
    rw [totalSize]
    exact Nat.eq_sub_of_add_eq (hcount.trans hsum)

/-- Joined parts with the same words in front of each. -/
theorem wordCount_joined_lead (lead : List Kind) (parts : List (List Kind)) :
    wordCount (joined (parts.map fun ks => lead ++ ks)) =
      wordCount (joined parts) + wordCount lead * parts.length := by
  induction parts with
  | nil => rfl
  | cons ks parts ih =>
      by_cases hparts : parts = []
      · subst hparts
        simp [Nat.add_comm]
      · rw [List.map_cons, joined_cons (by simpa using hparts), joined_cons hparts]
        simp only [wordCount_append, wordCount_word, ih, List.length_cons, Nat.mul_add]
        omega

/-- What is arranged of parts that hold the words of the children holds those of the whole. -/
theorem wordCount_arranged (h : parts.map wordCount = e.children.map size) :
    wordCount (e.arranged parts) = e.size := by
  have hjoined := wordCount_joined_parts h
  cases e with
  | literal value span => cases value <;> simp [arranged, Literal.payload, wordCount, kind_number,
      kind_of_not_number, Kind.isWord]
  | name _ _ _ _ | hole => simp [arranged, size_eq hole, ownWords, children]
  | member base segments span =>
      rcases List.map_eq_singleton_iff.mp h with ⟨part, rfl, hpart⟩
      simp [arranged, hpart]
  | call function arguments qualifiers span =>
      simpa [arranged, children] using hjoined
  | record fields span =>
      have hlength : parts.length = fields.length := by simpa [children] using congrArg List.length h
      rw [children] at hjoined
      simp only [arranged, wordCount_word, wordCount_append, wordCount_joined_lead, hjoined, hlength,
        wordCount_nil, size_record]
      cases fields with
      | nil => simp
      | cons field fields =>
          simp only [List.map_cons, totalSize_cons, List.length_cons]
          omega
  | table elements span =>
      rw [children] at hjoined
      simp [arranged, hjoined]
      omega
  | unary op operand span =>
      rcases List.map_eq_singleton_iff.mp h with ⟨part, rfl, hpart⟩
      rw [arranged]
      split <;> simp [hpart]
  | binary op left right span =>
      rw [arranged, hjoined]
      simp [children]
      omega
  | chain clauses span => rw [arranged, hjoined, size_chain, children]

/-- The tokens of an expression hold its words. -/
theorem wordCount_spelled (e : Expr) : wordCount (e.spelled p keep here) = e.size := by
  induction e using children_induct generalizing here with
  | step e ih =>
      rw [spelled_eq, wordCount_arranged]
      rw [List.map_map, ← List.zipIdx_map_fst 0 e.children, List.map_map, List.zipIdx_map_fst]
      refine List.map_congr_left fun child hchild => ?_
      have hinner := @ih child.1 (List.fst_mem_of_mem_zipIdx hchild) (here ++ [child.2])
      simp only [Function.comp_apply, spelledChild]
      split <;> simp [hinner]

/-- The tokens of a child hold its words. -/
theorem wordCount_spelledChild (child : Expr × Nat) :
    wordCount (e.spelledChild p keep here child) = child.1.size := by
  rw [spelledChild]
  split <;> simp [wordCount_spelled]

/-! ## Readable tokens -/

/-- Readable items are readable when they are joined. -/
theorem readable_joined (h : ∀ ks ∈ parts, .word false ∉ ks) : .word false ∉ joined parts := by
  induction parts with
  | nil => simp
  | cons ks parts ih =>
      have hrest := ih fun ks' hks' => h ks' (by simp [hks'])
      by_cases hparts : parts = []
      · subst hparts
        simpa using h ks (by simp)
      · rw [joined_cons hparts]
        simp [hrest, h ks (by simp)]

/-- What is written for a number with few enough digits in front of its point is readable. -/
theorem readable_payload {value : Literal} {span : Span} (hshaped : (literal value span).Shaped)
    (hdigits : (literal value span).DigitsBounded) : value.payload.kind = .word true := by
  cases value with
  | number number written =>
      have hnumeral : Numeral written.toList := hshaped
      rw [Literal.payload, kind_number, Kind.word.injEq, decide_eq_true_eq]
      intro n hn
      simp only [Token.wholeDigits?, String.toList_ofList] at hn
      split at hn
      · simp at hn
      · rename_i hwhole
        rw [← Option.mem_some.mp hn, hnumeral.length_plain (by simpa using hwhole)]
        exact hdigits
  | logical _ | text _ => rfl

/-- What is arranged of readable parts is readable. -/
theorem readable_arranged (hshaped : e.Shaped) (hdigits : e.DigitsBounded)
    (h : ∀ ks ∈ parts, .word false ∉ ks) : .word false ∉ e.arranged parts := by
  have hjoined := readable_joined h
  have hflatten : Kind.word false ∉ parts.flatten := by simpa using h
  cases e with
  | literal value span => simp [arranged, readable_payload hshaped hdigits]
  | record fields span =>
      have hfields : ∀ ks ∈ parts.map fun ks => [Kind.word true, .word true] ++ ks,
          .word false ∉ ks := List.forall_mem_map.mpr fun ks hks => by simp [h ks hks]
      have hjoined := readable_joined hfields
      simpa [arranged] using hjoined
  | unary op operand span =>
      rw [arranged]
      split <;> simp [hflatten]
  | name _ _ _ _ | member _ _ _ | call _ _ _ _ | table _ _ | binary _ _ _ _ | chain _ _ | hole =>
      simp [arranged, hjoined, hflatten, List.mem_replicate]

/-- The tokens of a child are readable if those that are spelled for it are. -/
theorem readable_spelledChild {child : Expr × Nat}
    (h : .word false ∉ child.1.spelled p keep (here ++ [child.2])) :
    .word false ∉ e.spelledChild p keep here child := by
  rw [spelledChild]
  split
  · simpa using h
  · exact h

/-- The tokens of an expression are readable if its numbers are. -/
theorem readable_spelled (h : e.Every Shaped) (hdigits : e.Every DigitsBounded) :
    .word false ∉ e.spelled p keep here := by
  induction e using children_induct generalizing here with
  | step e ih =>
      rw [spelled_eq]
      refine readable_arranged (every_iff.mp h).1 (every_iff.mp hdigits).1
        (List.forall_mem_map.mpr fun child hchild => ?_)
      have hmem := List.fst_mem_of_mem_zipIdx hchild
      exact readable_spelledChild (ih child.1 hmem ((every_iff.mp h).2 child.1 hmem)
        ((every_iff.mp hdigits).2 child.1 hmem))

end

end Expr

end FormulaLint
