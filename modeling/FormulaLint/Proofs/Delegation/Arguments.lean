import FormulaLint.Delegation.Report
import Mathlib.Data.List.Basic

/-!
# What a query takes its arguments for

A query takes each of its arguments for a condition, for a field to sort by, for a column, or for
nothing.  What it rules on an argument depends on this alone.

Main results:

- Theorem {lit}`CallSite.rulings_eq`: the rulings of a query, argument by argument.
- Theorem {lit}`CallSite.mem_rulings`: what the rulings of a query are.
-/

namespace FormulaLint

/-- What a query takes an argument for. -/
inductive ArgumentRole where
  | condition
  | field
  | column (use : ColumnUse)
deriving DecidableEq, Repr

namespace ArgumentRole

/-- The word with which a warning names an argument. -/
def subject : ArgumentRole → String
  | condition => "Clause"
  | field => "Sort"
  | column _ => "Column"

end ArgumentRole

/-- What a query takes the argument at a position for, if it looks at the argument. -/
def CallSite.role? (site : CallSite) (i : Nat) : Option ArgumentRole :=
  if predicateFunctions.contains site.function then
    if 1 ≤ i then some .condition else none
  else if site.function = "LookUp" then if i = 1 then some .condition else none
  else if site.function = "Sort" then if i = 1 then some .field else none
  else if site.function = "SortByColumns" then if i % 2 = 1 then some (.column .sortable) else none
  else if site.function = "ShowColumns" then if 1 ≤ i then some (.column .selectable) else none
  else none

/-- The ruling on an argument that is taken for something. -/
def Query.ruling (q : Query) (role : ArgumentRole) (here : Path) (e : Expr) : Query.Ruling :=
  match role with
  | .condition => q.clause here e
  | .field => q.sortExpression here e
  | .column use => q.column use here e

section Positions

variable {α β : Type}

/-- The items of a list that are taken for something, all for the same. -/
theorem filterMap_taken {ρ : Type} (p : α → Prop) [DecidablePred p] (role : ρ) (f : ρ → α → β)
    (l : List α) :
    (l.filterMap fun a => (if p a then some role else none).map fun role => f role a) =
      (l.filter fun a => p a).map (f role) := by
  induction l with
  | nil => rfl
  | cons a l ih =>
      rw [List.filterMap_cons, ih, List.filter_cons]
      by_cases h : p a <;> simp [h]

/-- The items behind the first one. -/
theorem filter_zipIdx_later (l : List α) :
    (l.zipIdx.filter fun c => decide (1 ≤ c.2)) = l.zipIdx.drop 1 := by
  cases l with
  | nil => rfl
  | cons a l =>
      rw [List.zipIdx_cons, List.filter_cons_of_neg (by simp), List.drop_one, List.tail_cons]
      refine List.filter_eq_self.mpr fun c hc => ?_
      simpa using List.le_snd_of_mem_zipIdx hc

/-- The second item. -/
theorem filter_zipIdx_second (l : List α) :
    (l.zipIdx.filter fun c => decide (c.2 = 1)) = (l.zipIdx.drop 1).take 1 := by
  match l with
  | [] => rfl
  | [a] => rfl
  | a :: b :: l =>
      have hrest : ((l.zipIdx 2).filter fun c => decide (c.2 = 1)) = [] := by
        refine List.filter_eq_nil_iff.mpr fun c hc => ?_
        have hle := List.le_snd_of_mem_zipIdx hc
        simp only [decide_eq_true_eq]
        omega
      simp [List.zipIdx_cons, hrest]

/-- Every other item, starting at an odd position. -/
theorem filter_zipIdx_odd (l : List α) {n : Nat} (hn : n % 2 = 1) :
    ((l.zipIdx n).filter fun c => decide (c.2 % 2 = 1)) = everyOther (l.zipIdx n) := by
  induction l using everyOther.induct generalizing n with
  | case1 => rfl
  | case2 a => simp [everyOther, hn]
  | case3 a b rest ih =>
      have heven : ¬ (n + 1) % 2 = 1 := by omega
      have hodd : (n + 1 + 1) % 2 = 1 := by omega
      simp [List.zipIdx_cons, everyOther, hn, heven, ih hodd]

/-- Every other item of a list whose items were all changed. -/
theorem everyOther_map (f : α → β) (l : List α) :
    everyOther (l.map f) = (everyOther l).map f := by
  induction l using everyOther.induct with
  | case1 => rfl
  | case2 a => rfl
  | case3 a b rest ih => simp [everyOther, ih]

end Positions

/-- The rulings of a query, argument by argument. -/
theorem CallSite.rulings_eq (site : CallSite) (q : Query) :
    site.rulings q = site.arguments.zipIdx.filterMap fun c =>
      (site.role? c.2).map fun role => q.ruling role (site.path ++ [c.2]) c.1 := by
  have hodd : site.arguments.zipIdx.filter (fun c => decide (c.2 % 2 = 1)) =
      everyOther (site.arguments.zipIdx.drop 1) := by
    cases site.arguments with
    | nil => rfl
    | cons first rest => simpa [List.zipIdx_cons] using filter_zipIdx_odd rest (n := 1) rfl
  simp only [rulings, role?, laterArguments, ← List.map_take, everyOther_map, List.map_map]
  split
  · rw [filterMap_taken, filter_zipIdx_later]
    rfl
  split
  · rw [filterMap_taken, filter_zipIdx_second]
    rfl
  split
  · rw [filterMap_taken, filter_zipIdx_second]
    rfl
  split
  · rw [filterMap_taken, hodd]
    rfl
  split
  · rw [filterMap_taken, filter_zipIdx_later]
    rfl
  · simp

namespace CallSite

variable {site : CallSite} {q : Query}

/-- What the rulings of a query are: one on each argument that is taken for something. -/
theorem mem_rulings {ruling : Query.Ruling} :
    ruling ∈ site.rulings q ↔ ∃ i argument role, site.arguments[i]? = some argument ∧
      site.role? i = some role ∧ ruling = q.ruling role (site.path ++ [i]) argument := by
  rw [rulings_eq, List.mem_filterMap]
  constructor
  · rintro ⟨⟨argument, i⟩, hmem, hruling⟩
    rcases Option.map_eq_some_iff.mp hruling with ⟨role, hrole, rfl⟩
    exact ⟨i, argument, role, List.mem_zipIdx_iff_getElem?.mp hmem, hrole, rfl⟩
  · rintro ⟨i, argument, role, hargument, hrole, rfl⟩
    exact ⟨(argument, i), List.mem_zipIdx_iff_getElem?.mpr hargument, by simp [hrole]⟩

/-- The first argument of a query is taken for nothing. -/
theorem one_le_of_role? {i : Nat} {role : ArgumentRole} (h : site.role? i = some role) :
    1 ≤ i := by
  cases i with
  | zero => simp [role?] at h
  | succ i => omega

/-- What is found in the rulings of a query, argument by argument. -/
theorem flatMap_rulings {α : Type} (found : Query.Ruling → List α) :
    (site.rulings q).flatMap found = site.arguments.zipIdx.flatMap fun c =>
      (site.role? c.2).elim [] fun role => found (q.ruling role (site.path ++ [c.2]) c.1) := by
  rw [rulings_eq, List.filterMap_eq_flatMap_toList, List.flatMap_assoc]
  refine List.flatMap_congr fun c _ => ?_
  cases site.role? c.2 <;> simp

end CallSite

end FormulaLint
