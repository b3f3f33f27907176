import FormulaLint.Proofs.Delegation.Judgements

/-!
# What a query gives to its source

A condition falls into its leaves: the largest parts of it that are no combinations of conditions.
These leaves, and each field and column as a whole, are the units of a query.  Each unit has a verdict
of its own; the query can run at the source as far as its units can, and is warned about unit by
unit.

Main results:

- Theorem {lit}`Query.clause_iff_leaves`: a clause is delegable exactly when its leaves are.
- Theorem {lit}`Query.warnings_clause`: the warnings about a clause are those about its leaves.
- Theorem {lit}`CallSite.rulings_iff_units`: the verdict on the arguments of a query, by its units.
- Theorem {lit}`CallSite.warnings_rulings`: the warnings about a query, by its units.
-/

namespace FormulaLint

/-! ## The leaves of a clause -/

namespace Expr

/-- Whether every part on the way to the part at a path is a combination of conditions. -/
def joins : Expr → Path → Bool
  | _, [] => true
  | e, i :: rest => e.isCombinator && (e.children[i]?).any fun c => c.joins rest

/-- The leaves of a clause: the parts that are no combinations of conditions, and that are reached
through combinations alone. -/
def leaves (here : Path) (e : Expr) : List (Path × Expr) :=
  (e.walk.filter fun part => e.joins part.1 && !part.2.isCombinator).map fun part =>
    (here ++ part.1, part.2)

variable {e : Expr} {here : Path}

/-- A clause that is no combination is its own leaf. -/
theorem leaves_of_leaf (h : e.isCombinator = false) : e.leaves here = [(here, e)] := by
  have hparts : (walkAll [] 0 e.children).filter (fun part => e.joins part.1 &&
      !part.2.isCombinator) = [] := by
    refine List.filter_eq_nil_iff.mpr fun part hpart => ?_
    rw [walkAll_eq_flatMap, List.mem_flatMap] at hpart
    rcases hpart with ⟨c, -, hpart⟩
    rcases mem_walkFrom.mp hpart with ⟨rel, hrel, -⟩
    simp [hrel, joins, h]
  rw [leaves, walk_eq, List.filter_cons_of_pos (by simp [joins, h]), hparts]
  simp

/-- The leaves of a combination of clauses are those of its branches. -/
theorem leaves_of_combinator (h : e.isCombinator = true) :
    e.leaves here = e.children.zipIdx.flatMap fun c => c.1.leaves (here ++ [c.2]) := by
  rw [leaves, walk_eq, List.filter_cons_of_neg (by simp [h]), walkAll_eq_flatMap,
    List.filter_flatMap, List.map_flatMap]
  refine List.flatMap_congr fun c hc => ?_
  have hchild := List.mem_zipIdx_iff_getElem?.mp hc
  rw [leaves, walkFrom_eq_map, List.filter_map, List.map_map]
  simp [Function.comp_def, joins, h, hchild]

/-- No leaf is listed twice. -/
theorem pairwise_leaves (here : Path) (e : Expr) :
    (e.leaves here).Pairwise fun a b => a.1 ≠ b.1 := by
  refine List.pairwise_map.mpr (((pairwise_walkFrom e []).filter _).imp fun hne hpath => hne ?_)
  exact List.append_cancel_left hpath

end Expr

namespace Query

variable {q : Query}

/-- The warnings about a combination of clauses are those about its branches. -/
theorem warnings_of_combinator {e : Expr} {here : Path} (h : e.isCombinator = true) :
    (q.clause here e).warnings =
      e.children.zipIdx.flatMap fun c => (q.clause (here ++ [c.2]) c.1).warnings := by
  have hall : ∀ (es : List Expr) (index : Nat), (clauseAll q here index es).warnings =
      (es.zipIdx index).flatMap fun c => (q.clause (here ++ [c.2]) c.1).warnings := by
    intro es
    induction es with
    | nil => simp [clauseAll]
    | cons e rest ih => simp [clauseAll, Ruling.join, ih]
  cases e with
  | unary op operand span =>
      have hlogical : op.isLogical = true := h
      simp [clause, hlogical, Ruling.combine, Expr.children]
  | binary op left right span =>
      have hlogical : op.isLogical = true := h
      simp [clause, hlogical, Ruling.combine, Ruling.join, Expr.children]
  | call function arguments qualifiers span =>
      have hjoins : (combinatorFunctions.contains function && qualifiers.isEmpty) = true := h
      rw [clause, if_pos hjoins, Ruling.combine, hall, Expr.children]
  | _ => simp [Expr.isCombinator] at h

/-- A clause is delegable exactly when each of its leaves is. -/
theorem clause_iff_leaves {e : Expr} {here : Path} :
    (q.clause here e).verdict.isDelegable = true ↔
      ∀ leaf ∈ e.leaves here, (q.judge leaf.1 leaf.2).verdict.isDelegable = true := by
  induction e using Expr.children_induct generalizing here with
  | step e ih =>
      cases hcombinator : e.isCombinator with
      | false => simp [clause_of_leaf hcombinator, Expr.leaves_of_leaf hcombinator, leafClause]
      | true =>
          rw [clause_of_combinator hcombinator, Expr.leaves_of_combinator hcombinator,
            List.forall_mem_flatMap]
          constructor
          · rintro h ⟨c, i⟩ hc
            have hchild := List.mem_zipIdx_iff_getElem?.mp hc
            exact (ih c (List.mem_of_getElem? hchild)).mp (h i c hchild)
          · intro h i c hchild
            exact (ih c (List.mem_of_getElem? hchild)).mpr
              (h (c, i) (List.mem_zipIdx_iff_getElem?.mpr hchild))

/-- The warnings about a clause are those about its leaves. -/
theorem warnings_clause {e : Expr} {here : Path} :
    (q.clause here e).warnings = (e.leaves here).flatMap fun leaf =>
      warn "Clause" leaf.2.span (q.judge leaf.1 leaf.2).verdict := by
  induction e using Expr.children_induct generalizing here with
  | step e ih =>
      cases hcombinator : e.isCombinator with
      | false => simp [clause_of_leaf hcombinator, Expr.leaves_of_leaf hcombinator, leafClause]
      | true =>
          rw [warnings_of_combinator hcombinator, Expr.leaves_of_combinator hcombinator,
            List.flatMap_assoc]
          exact List.flatMap_congr fun c hc => ih c.1 (List.fst_mem_of_mem_zipIdx hc)

end Query

/-! ## The units of a query -/

/-- A unit of a query: a part that its source has to take as a whole, and what it is taken for. -/
structure QueryUnit where
  path : Path
  part : Expr
  role : ArgumentRole

/-- The units of an argument: the leaves of a condition, and any other argument as a whole. -/
def ArgumentRole.units (role : ArgumentRole) (here : Path) (e : Expr) : List QueryUnit :=
  match role with
  | .condition => (e.leaves here).map fun leaf => ⟨leaf.1, leaf.2, .condition⟩
  | .field => [⟨here, e, .field⟩]
  | .column use => [⟨here, e, .column use⟩]

/-- The units of a query, argument by argument. -/
def CallSite.units (site : CallSite) : List QueryUnit :=
  site.arguments.zipIdx.flatMap fun c =>
    (site.role? c.2).elim [] fun role => role.units (site.path ++ [c.2]) c.1

namespace Query

variable {q : Query}

/-- The verdict on a unit. -/
def unitVerdict (q : Query) (u : QueryUnit) : Verdict :=
  match u.role with
  | .condition => (q.judge u.path u.part).verdict
  | .field => (q.sortExpression u.path u.part).verdict
  | .column use => (q.column use u.path u.part).verdict

/-- An argument is delegable exactly when each of its units is. -/
theorem ruling_iff_units {role : ArgumentRole} {here : Path} {e : Expr} :
    (q.ruling role here e).verdict.isDelegable = true ↔
      ∀ u ∈ role.units here e, (q.unitVerdict u).isDelegable = true := by
  cases role with
  | condition => rw [ruling, clause_iff_leaves, ArgumentRole.units, List.forall_mem_map]; rfl
  | field | column use => simp [ruling, ArgumentRole.units, unitVerdict]

/-- The warnings about an argument are those about its units. -/
theorem warnings_ruling {role : ArgumentRole} {here : Path} {e : Expr} :
    (q.ruling role here e).warnings = (role.units here e).flatMap fun u =>
      warn u.role.subject u.part.span (q.unitVerdict u) := by
  cases role with
  | condition =>
      simp [ruling, ArgumentRole.units, warnings_clause, unitVerdict, List.flatMap_map,
        ArgumentRole.subject]
  | field | column use => simp [ruling, ArgumentRole.units, unitVerdict, ArgumentRole.subject,
      sortExpression, column, single]

end Query

namespace CallSite

variable {site : CallSite} {q : Query}

/-- The arguments of a query are delegable together exactly when each unit is. -/
theorem rulings_iff_units :
    (Verdict.all ((site.rulings q).map (·.verdict))).isDelegable = true ↔
      ∀ u ∈ site.units, (q.unitVerdict u).isDelegable = true := by
  rw [Verdict.isDelegable_all, rulings_eq, List.all_eq_true, List.forall_mem_map]
  simp only [units, List.forall_mem_flatMap, List.mem_filterMap]
  constructor
  · intro h c hc
    cases hrole : site.role? c.2 with
    | none => simp
    | some role => exact Query.ruling_iff_units.mp (h _ ⟨c, hc, by simp [hrole]⟩)
  · rintro h ruling ⟨c, hc, hruling⟩
    rcases Option.map_eq_some_iff.mp hruling with ⟨role, hrole, rfl⟩
    exact Query.ruling_iff_units.mpr (by simpa [hrole] using h c hc)

/-- The warnings about a query are those about its units. -/
theorem warnings_rulings :
    (site.rulings q).flatMap (·.warnings) = site.units.flatMap fun u =>
      Query.warn u.role.subject u.part.span (q.unitVerdict u) := by
  rw [flatMap_rulings, units, List.flatMap_assoc]
  refine List.flatMap_congr fun c _ => ?_
  cases site.role? c.2 with
  | none => rfl
  | some role => simp [Query.warnings_ruling]

/-- The units of an argument stand inside it. -/
theorem path_of_mem_units {role : ArgumentRole} {here : Path} {e : Expr} {u : QueryUnit}
    (h : u ∈ role.units here e) : ∃ rel, u.path = here ++ rel := by
  cases role with
  | condition =>
      rcases List.mem_map.mp h with ⟨leaf, hleaf, rfl⟩
      rcases List.mem_map.mp hleaf with ⟨part, -, rfl⟩
      exact ⟨part.1, rfl⟩
  | field | column use =>
      obtain rfl := List.mem_singleton.mp h
      exact ⟨[], by simp⟩

/-- No unit is listed twice. -/
theorem pairwise_units (site : CallSite) :
    site.units.Pairwise fun a b => a.path ≠ b.path := by
  have hthrough : ∀ c ∈ site.arguments.zipIdx,
      ∀ u ∈ (site.role? c.2).elim [] fun role => role.units (site.path ++ [c.2]) c.1,
        ∃ rel, u.path = site.path ++ c.2 :: rel := by
    intro c _ u hu
    cases hrole : site.role? c.2 with
    | none => simp [hrole] at hu
    | some role =>
        rcases path_of_mem_units (by simpa [hrole] using hu) with ⟨rel, hrel⟩
        exact ⟨rel, by simpa using hrel⟩
  refine Expr.pairwise_flatMap_children hthrough fun c _ => ?_
  cases site.role? c.2 with
  | none => exact .nil
  | some role =>
      cases role with
      | condition => exact List.pairwise_map.mpr (Expr.pairwise_leaves _ _)
      | field | column use => exact List.pairwise_singleton _ _

end CallSite

end FormulaLint
