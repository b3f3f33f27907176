import FormulaLint.Text.Order

/-!
# Where a formula lives

A formula is known by its document, the control it belongs to and the property it gives a value.
Keys are ordered by document, then control, then property.

Main results:

- Theorem {lit}`FormulaKey.before_total`: any two keys are ordered.
- Theorem {lit}`FormulaKey.before_antisymm`: the order tells any two keys apart.
- Theorem {lit}`FormulaKey.before_trans`: the order is transitive.
-/

namespace FormulaLint

/-- Where a formula lives. -/
structure FormulaKey where
  document : String := ""
  control : String := ""
  property : String := ""
deriving DecidableEq, Repr

namespace FormulaKey

/-- The short name of a formula: control and property as far as there are any, or else the
document. -/
def name (key : FormulaKey) : String :=
  let short := ".".intercalate ([key.control, key.property].filter (!·.isEmpty))
  if short.isEmpty then key.document else short

/-- Whether a key may stand before another one. -/
def before (a b : FormulaKey) : Bool :=
  if a.document = b.document then
    if a.control = b.control then Text.before a.property b.property
    else Text.before a.control b.control
  else Text.before a.document b.document

/-- Any two keys are ordered. -/
theorem before_total (a b : FormulaKey) : (a.before b || b.before a) = true := by
  simp only [before]
  by_cases hd : a.document = b.document
  · by_cases hc : a.control = b.control
    · simpa [hd, hc] using Text.before_total a.property b.property
    · have hc' : ¬ b.control = a.control := fun h => hc h.symm
      simpa [hd, hc, hc'] using Text.before_total a.control b.control
  · have hd' : ¬ b.document = a.document := fun h => hd h.symm
    simpa [hd, hd'] using Text.before_total a.document b.document

/-- The order tells any two keys apart. -/
theorem before_antisymm {a b : FormulaKey} (hab : a.before b) (hba : b.before a) : a = b := by
  simp only [before] at hab hba
  by_cases hd : a.document = b.document
  · by_cases hc : a.control = b.control
    · simp only [hd, hc, ↓reduceIte] at hab hba
      have hp := Text.before_antisymm hab hba
      obtain ⟨_, _, _⟩ := a
      obtain ⟨_, _, _⟩ := b
      simp_all
    · have hc' : ¬ b.control = a.control := fun h => hc h.symm
      simp only [hd, hc, hc', ↓reduceIte] at hab hba
      exact absurd (Text.before_antisymm hab hba) hc
  · have hd' : ¬ b.document = a.document := fun h => hd h.symm
    simp only [hd, hd', ↓reduceIte] at hab hba
    exact absurd (Text.before_antisymm hab hba) hd

/-- The order of keys is transitive. -/
theorem before_trans {a b c : FormulaKey} (hab : a.before b) (hbc : b.before c) : a.before c :=
  Text.firstDifference_trans Text.before_antisymm Text.before_trans hab hbc
    fun hab hbc => Text.firstDifference_trans Text.before_antisymm Text.before_trans hab hbc
      Text.before_trans

end FormulaKey

end FormulaLint
