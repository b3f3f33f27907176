import FormulaLint.Proofs.Parts
import Mathlib.Data.List.Basic

/-!
# Parts by their paths

The parts that a walk lists are exactly the parts that paths lead to.  A walk over the children of
an expression is one walk for each child, with the position of the child at the end of the path.

Main results:

- Theorem {lit}`Expr.at?_append`: a path can be followed in two stages.
- Theorem {lit}`Expr.mem_walkFrom`: a walk lists exactly the parts that paths lead to.
- Theorem {lit}`Expr.pairwise_walkFrom`: no part is listed twice.
-/

namespace FormulaLint

namespace Expr

@[simp] theorem at?_nil (e : Expr) : e.at? [] = some e := by
  rw [at?]

/-- The first step of a path leads to a child. -/
theorem at?_cons {e part : Expr} {i : Nat} {rest : Path} :
    e.at? (i :: rest) = some part ↔
      ∃ c, e.children[i]? = some c ∧ c.at? rest = some part := by
  rw [at?, Option.bind_eq_some_iff]

/-- A path can be followed in two stages. -/
theorem at?_append (e : Expr) (p q : Path) :
    e.at? (p ++ q) = (e.at? p).bind fun part => part.at? q := by
  induction p generalizing e with
  | nil => simp
  | cons i rest ih =>
      rw [List.cons_append, at?, at?, Option.bind_assoc]
      exact congrArg _ (funext fun c => ih c)

/-- A path that goes on from a part. -/
theorem at?_append_of {e part : Expr} {p : Path} (h : e.at? p = some part) (q : Path) :
    e.at? (p ++ q) = part.at? q := by
  rw [at?_append, h, Option.bind_some]

/-- A name has no parts of its own. -/
theorem at?_name {identifier : Identifier} {identifierSpan span : Span} {chain : List Segment}
    {part : Expr} {rel : Path}
    (h : (name identifier identifierSpan chain span).at? rel = some part) :
    rel = [] ∧ part = name identifier identifierSpan chain span := by
  cases rel with
  | nil => exact ⟨rfl, by simpa using h.symm⟩
  | cons i rest =>
      rcases at?_cons.mp h with ⟨c, hc, -⟩
      simp [children] at hc

end Expr

/-- The walks of the children are one walk for each child. -/
theorem walkAll_eq_flatMap (here : Path) (index : Nat) (es : List Expr) :
    walkAll here index es = (es.zipIdx index).flatMap fun c => c.1.walkFrom (here ++ [c.2]) := by
  induction es generalizing index with
  | nil => rfl
  | cons e rest ih => rw [walkAll, ih, List.zipIdx_cons, List.flatMap_cons]

/-- A walk lists exactly the parts that paths lead to. -/
theorem Expr.mem_walkFrom {e part : Expr} {here path : Path} :
    (path, part) ∈ e.walkFrom here ↔ ∃ rel, path = here ++ rel ∧ e.at? rel = some part := by
  induction e using Expr.children_induct generalizing here with
  | step e ih =>
      rw [walkFrom_eq, List.mem_cons, walkAll_eq_flatMap, List.mem_flatMap]
      constructor
      · rintro (h | ⟨⟨c, i⟩, hc, h⟩)
        · rcases Prod.mk.inj h with ⟨rfl, rfl⟩
          exact ⟨[], by simp⟩
        · have hchild := List.mem_zipIdx_iff_getElem?.mp hc
          rcases (ih c (List.mem_of_getElem? hchild)).mp h with ⟨rel, rfl, hrel⟩
          exact ⟨i :: rel, by simp, at?_cons.mpr ⟨c, hchild, hrel⟩⟩
      · rintro ⟨rel, rfl, hrel⟩
        cases rel with
        | nil => exact Or.inl (by simpa using hrel.symm)
        | cons i rel =>
            rcases at?_cons.mp hrel with ⟨c, hchild, hrel⟩
            refine Or.inr ⟨(c, i), List.mem_zipIdx_iff_getElem?.mpr hchild, ?_⟩
            exact (ih c (List.mem_of_getElem? hchild)).mpr ⟨rel, by simp, hrel⟩

namespace Expr

/-- A walk from a path lists the parts behind that path. -/
theorem walkFrom_eq_map (e : Expr) (here : Path) :
    e.walkFrom here = e.walk.map fun part => (here ++ part.1, part.2) := by
  induction e using children_induct generalizing here with
  | step e ih =>
      rw [walk, walkFrom_eq, walkFrom_eq, walkAll_eq_flatMap, walkAll_eq_flatMap, List.map_cons,
        List.append_nil, List.map_flatMap]
      refine congrArg _ (List.flatMap_congr fun c hc => ?_)
      have hchild := List.fst_mem_of_mem_zipIdx hc
      rw [ih c.1 hchild, ih c.1 hchild, List.map_map]
      simp [Function.comp_def]

/-! ## Different paths -/

/-- The positions of the children grow. -/
theorem pairwise_zipIdx {α : Type} (l : List α) : l.zipIdx.Pairwise fun a b => a.2 < b.2 := by
  rw [← List.pairwise_map (f := Prod.snd) (R := (· < ·)), List.zipIdx_map_snd]
  exact List.pairwise_lt_range'

/-- What is found in the children, at paths through them, stands at different paths if what is found
in each child does. -/
theorem pairwise_flatMap_children {α : Type} {path : α → Path} {here : Path} {es : List Expr}
    {found : Expr × Nat → List α}
    (hthrough : ∀ c ∈ es.zipIdx, ∀ a ∈ found c, ∃ rel, path a = here ++ c.2 :: rel)
    (heach : ∀ c ∈ es.zipIdx, (found c).Pairwise fun a b => path a ≠ path b) :
    (es.zipIdx.flatMap found).Pairwise fun a b => path a ≠ path b := by
  rw [List.pairwise_flatMap]
  refine ⟨heach, (pairwise_zipIdx es).imp_of_mem fun hc hc' hlt a ha b hb hpath => ?_⟩
  rcases hthrough _ hc a ha with ⟨rel, hrel⟩
  rcases hthrough _ hc' b hb with ⟨rel', hrel'⟩
  rw [hrel, hrel'] at hpath
  exact absurd (List.cons.inj (List.append_cancel_left hpath)).1 (Nat.ne_of_lt hlt)

/-- No part is listed twice. -/
theorem pairwise_walkFrom (e : Expr) (here : Path) :
    (e.walkFrom here).Pairwise fun a b => a.1 ≠ b.1 := by
  induction e using children_induct generalizing here with
  | step e ih =>
      rw [walkFrom_eq, List.pairwise_cons, walkAll_eq_flatMap]
      have hthrough : ∀ c ∈ e.children.zipIdx, ∀ part ∈ c.1.walkFrom (here ++ [c.2]),
          ∃ rel, part.1 = here ++ c.2 :: rel := by
        rintro c - ⟨path, part⟩ hpart
        rcases mem_walkFrom.mp hpart with ⟨rel, rfl, -⟩
        exact ⟨rel, by simp⟩
      refine ⟨fun part hpart hpath => ?_, pairwise_flatMap_children hthrough fun c hc => ?_⟩
      · rcases List.mem_flatMap.mp hpart with ⟨c, hc, hpart⟩
        rcases hthrough c hc part hpart with ⟨rel, hrel⟩
        simp [hrel] at hpath
      · exact ih c.1 (List.fst_mem_of_mem_zipIdx hc) _

end Expr

end FormulaLint
