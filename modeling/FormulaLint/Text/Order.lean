/-!
# The order of texts

Texts are ordered by their characters, and lists of texts by the first text in which they differ.

Main results:

- Theorem {lit}`firstDifference_trans`: an order in which the first difference decides is transitive.
- Theorem {lit}`listBefore_total`: any two lists of texts are ordered.
- Theorem {lit}`listBefore_trans`: their order is transitive.
-/

namespace FormulaLint.Text

/-- Whether a text may stand before another one. -/
def before (a b : String) : Bool :=
  decide (a ≤ b)

/-- Whether a list of texts may stand before another one: the first difference decides. -/
def listBefore : List String → List String → Bool
  | [], _ => true
  | _ :: _, [] => false
  | a :: as, b :: bs => if a = b then listBefore as bs else before a b

/-- Any two texts are ordered. -/
theorem before_total (a b : String) : (before a b || before b a) = true := by
  simpa [before] using String.le_total a b

/-- The order tells any two texts apart. -/
theorem before_antisymm {a b : String} (hab : before a b) (hba : before b a) : a = b :=
  String.le_antisymm (by simpa [before] using hab) (by simpa [before] using hba)

/-- The order of texts is transitive. -/
theorem before_trans {a b c : String} (hab : before a b) (hbc : before b c) : before a c := by
  simp only [before, decide_eq_true_eq] at *
  exact String.le_trans hab hbc

/-- An order in which the first difference decides is transitive: by the items if they differ, and by
what follows them if they do not. -/
theorem firstDifference_trans {α : Type} [DecidableEq α] {le : α → α → Bool}
    (antisymm : ∀ {a b}, le a b = true → le b a = true → a = b)
    (trans : ∀ {a b c}, le a b = true → le b c = true → le a c = true) {a b c : α}
    {restAB restBC restAC : Bool} (hab : (if a = b then restAB else le a b) = true)
    (hbc : (if b = c then restBC else le b c) = true)
    (hrest : restAB = true → restBC = true → restAC = true) :
    (if a = c then restAC else le a c) = true := by
  by_cases hb : a = b
  · subst hb
    by_cases hc : a = c
    · simp only [hc, ↓reduceIte] at hab hbc ⊢
      exact hrest hab hbc
    · simpa [hc] using hbc
  · simp only [hb, ↓reduceIte] at hab
    by_cases hc : b = c
    · subst hc
      simpa [hb] using hab
    · simp only [hc, ↓reduceIte] at hbc
      have hac : a ≠ c := fun h => hb (antisymm hab (h ▸ hbc))
      simpa [hac] using trans hab hbc

/-- Any two lists of texts are ordered. -/
theorem listBefore_total (as bs : List String) :
    (listBefore as bs || listBefore bs as) = true := by
  induction as generalizing bs with
  | nil => simp [listBefore]
  | cons a as ih =>
      cases bs with
      | nil => simp [listBefore]
      | cons b bs =>
          by_cases h : a = b
          · subst h
            simpa [listBefore] using ih bs
          · have h' : ¬ b = a := fun e => h e.symm
            simpa [listBefore, h, h'] using before_total a b

/-- The order of lists of texts is transitive. -/
theorem listBefore_trans {as bs cs : List String} (hab : listBefore as bs)
    (hbc : listBefore bs cs) : listBefore as cs := by
  induction as generalizing bs cs with
  | nil => rfl
  | cons a as ih =>
      cases bs with
      | nil => simp [listBefore] at hab
      | cons b bs =>
          cases cs with
          | nil => simp [listBefore] at hbc
          | cons c cs => exact firstDifference_trans before_antisymm before_trans hab hbc ih

end FormulaLint.Text
