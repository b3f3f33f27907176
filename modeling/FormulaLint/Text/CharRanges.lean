/-!
# Ranges of characters

A property of characters is tabulated as a list of code point ranges in increasing order.
Membership walks the list and stops at the first range that starts beyond the character.

Main results:

- Theorem {lit}`CharRanges.contains_cons_of_lt`: nothing below the first range is a member.
- Theorem {lit}`CharRanges.exists_of_contains`: a member lies in one of the ranges.
-/

namespace FormulaLint.Text

/-- Inclusive ranges of code points in increasing order. -/
abbrev CharRanges := List (Nat × Nat)

namespace CharRanges

/-- Whether a code point lies in one of the ranges. -/
def containsCode : CharRanges → Nat → Bool
  | [], _ => false
  | (low, high) :: rest, n =>
      if n < low then false else if n ≤ high then true else containsCode rest n

/-- Whether a character lies in one of the ranges. -/
def contains (ranges : CharRanges) (c : Char) : Bool :=
  containsCode ranges c.toNat

/-- Nothing below the first range is a member. -/
theorem contains_cons_of_lt {low high : Nat} {rest : CharRanges} {c : Char}
    (h : c.toNat < low) : contains ((low, high) :: rest) c = false := by
  simp [contains, containsCode, h]

/-- A member lies in one of the ranges. -/
theorem exists_of_contains {ranges : CharRanges} {c : Char} (h : contains ranges c = true) :
    ∃ range ∈ ranges, range.1 ≤ c.toNat ∧ c.toNat ≤ range.2 := by
  induction ranges with
  | nil => simp [contains, containsCode] at h
  | cons range rest ih =>
      obtain ⟨low, high⟩ := range
      simp only [contains, containsCode] at h
      split at h
      · simp at h
      · split at h
        · exact ⟨(low, high), by simp, by omega, by omega⟩
        · obtain ⟨range, hmem, hin⟩ := ih h
          exact ⟨range, by simp [hmem], hin⟩

end CharRanges

end FormulaLint.Text
