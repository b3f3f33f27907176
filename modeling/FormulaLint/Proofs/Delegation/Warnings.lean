import FormulaLint.Proofs.Delegation.NestedQueries
import FormulaLint.Proofs.Delegation.Units

/-!
# What the queries of a formula are warned about

Every query of a formula is warned about once for each of its units that is refused, and about
nothing else.  Its own verdict is a refusal exactly when one of its units is refused, or when the
table that it reads stands refused at the time when it is judged.  This verdict is the one in the
report, unless another query takes the whole query for a field or for a column.

Main results:

- Theorem {lit}`CallSite.warnings_foldl_judge`: the warnings of a series of queries.
- Theorem {lit}`CallSite.isDelegable_verdict`: the verdict on a query, by its table and its units.
- Theorem {lit}`delegation_warns_by_unit`: the warnings and verdicts of a formula, unit by unit.
-/

namespace FormulaLint

/-! ## Refused units -/

/-- The reason of a refusal. -/
def Verdict.refusal? : Verdict → Option Refusal
  | delegable => none
  | refused reason => some reason

/-- A verdict has a reason exactly when it is a refusal for that reason. -/
theorem Verdict.refusal?_eq_some_iff {v : Verdict} {reason : Refusal} :
    v.refusal? = some reason ↔ v = .refused reason := by
  cases v <;> simp [refusal?]

/-- A unit of a query that was refused, with the query and the reason. -/
structure RefusedUnit where
  site : CallSite
  unit : QueryUnit
  reason : Refusal

namespace RefusedUnit

/-- The warning about a refused unit. -/
def warning (r : RefusedUnit) : Diagnostic :=
  .report .nonDelegable r.unit.part.span
    (r.unit.role.subject ++ " cannot be delegated: " ++ r.reason.message)

end RefusedUnit

/-- The units of a query that are refused. -/
def CallSite.refusedUnits (site : CallSite) (q : Query) : List RefusedUnit :=
  site.units.filterMap fun u => (q.unitVerdict u).refusal?.map fun reason => ⟨site, u, reason⟩

/-- The units of all queries of a formula that are refused. -/
def Expr.refusedUnits (e : Expr) (capabilities : CapabilityTable) (bindings : Bindings) :
    List RefusedUnit :=
  e.querySites.flatMap fun site => (site.query? capabilities bindings).elim [] site.refusedUnits

/-- What was found in a formula when a query of it is about to be judged. -/
def judgingBefore (capabilities : CapabilityTable) (bindings : Bindings) (e : Expr)
    (site : CallSite) : Judging :=
  (e.querySites.takeWhile fun s => decide (s.path ≠ site.path)).foldl
    (CallSite.judge capabilities bindings) ⟨.empty, []⟩

variable {capabilities : CapabilityTable} {bindings : Bindings} {e : Expr} {site : CallSite}
  {q : Query}

namespace CallSite

/-- A refused unit of a query, by the unit and its verdict. -/
theorem mem_refusedUnits {r : RefusedUnit} :
    r ∈ site.refusedUnits q ↔
      r.site = site ∧ r.unit ∈ site.units ∧ q.unitVerdict r.unit = .refused r.reason := by
  rw [refusedUnits, List.mem_filterMap]
  constructor
  · rintro ⟨u, hu, hr⟩
    rcases Option.map_eq_some_iff.mp hr with ⟨reason, hreason, rfl⟩
    exact ⟨rfl, hu, Verdict.refusal?_eq_some_iff.mp hreason⟩
  · rintro ⟨rfl, hu, hverdict⟩
    exact ⟨r.unit, hu, by simp [hverdict, Verdict.refusal?]⟩

/-- The warnings about a query are those about its refused units. -/
theorem map_warning_refusedUnits (site : CallSite) (q : Query) :
    (site.refusedUnits q).map RefusedUnit.warning = (site.rulings q).flatMap (·.warnings) := by
  rw [warnings_rulings, refusedUnits]
  induction site.units with
  | nil => rfl
  | cons u rest ih =>
      rw [List.filterMap_cons, List.flatMap_cons, ← ih]
      cases q.unitVerdict u with
      | delegable => rfl
      | refused reason => rfl

/-- The warnings of a series of queries are those about each of them. -/
theorem warnings_foldl_judge (capabilities : CapabilityTable) (bindings : Bindings)
    (sites : List CallSite) (judging : Judging) :
    (sites.foldl (judge capabilities bindings) judging).warnings =
      judging.warnings ++ sites.flatMap fun site =>
        ((site.query? capabilities bindings).elim [] site.refusedUnits).map
          RefusedUnit.warning := by
  induction sites generalizing judging with
  | nil => simp
  | cons site rest ih =>
      rw [List.foldl_cons, ih, List.flatMap_cons, ← List.append_assoc]
      congr 1
      unfold judge
      cases site.query? capabilities bindings with
      | none => simp
      | some q => simp [map_warning_refusedUnits]

/-- The table that a query reads bears on its verdict exactly when it was refused. -/
theorem isDelegable_innerVerdict {verdicts : Verdicts} :
    (site.innerVerdict q verdicts).isDelegable = true ↔
      ¬ verdicts.Refuses (site.path ++ [0]) := by
  unfold innerVerdict Verdicts.Refuses
  split
  · rename_i reason hget
    simp [hget]
  · rename_i hnot
    simp only [Verdict.isDelegable_delegable, true_iff, not_exists]
    exact hnot

/-- The verdict of a query on its own call is favourable exactly when the table that it reads was not
refused and each of its units is delegable. -/
theorem isDelegable_verdict {verdicts : Verdicts} :
    ((site.innerVerdict q verdicts).andThen
      (.all ((site.rulings q).map (·.verdict)))).isDelegable = true ↔
        ¬ verdicts.Refuses (site.path ++ [0]) ∧
          ∀ u ∈ site.units, (q.unitVerdict u).isDelegable = true := by
  rw [Verdict.isDelegable_andThen, Bool.and_eq_true, isDelegable_innerVerdict, rulings_iff_units]

end CallSite

/-! ## A query among the others -/

/-- The queries that are judged before a query, and those that are judged after it. -/
theorem judgingBefore_split (capabilities : CapabilityTable) (bindings : Bindings)
    (h : site ∈ e.querySites) :
    ∃ before after, e.querySites = before ++ site :: after ∧
      judgingBefore capabilities bindings e site =
        before.foldl (CallSite.judge capabilities bindings) ⟨.empty, []⟩ ∧
      (∀ s ∈ before, s ∈ e.querySites ∧ site.depth ≤ s.depth) ∧
      ∀ s ∈ after, s ∈ e.querySites ∧ s.isWithin site.path = false := by
  rcases Expr.querySites_split h with ⟨before, after, hsplit, hbefore, hafter, -⟩
  have hdistinct := Expr.pairwise_path_querySites e
  rw [hsplit, List.pairwise_append] at hdistinct
  refine ⟨before, after, hsplit, ?_, fun s hs => ⟨?_, hbefore s hs⟩, fun s hs => ?_⟩
  · rw [judgingBefore, hsplit, List.takeWhile_append_of_pos, List.takeWhile_cons_of_neg (by simp),
      List.append_nil]
    intro s hs
    simpa using hdistinct.2.2 s hs site (List.mem_cons_self ..)
  · rw [hsplit]
    exact List.mem_append_left _ hs
  · have hmem : s ∈ e.querySites := by
      rw [hsplit]
      exact List.mem_append_right _ (List.mem_cons_of_mem _ hs)
    exact ⟨hmem, CallSite.not_isWithin_of_depth_le hmem h (hafter s hs).1 (hafter s hs).2⟩

/-- The verdict that a query gets when it is judged stays, unless the query is taken for a field. -/
theorem get?_delegation_of_judge {v : Verdict} (h : site ∈ e.querySites)
    (hfield : ¬ site.TakenForField capabilities bindings e)
    (hjudged : (site.judge capabilities bindings
      (judgingBefore capabilities bindings e site)).verdicts.get? site.path = some v) :
    (delegation capabilities bindings e).verdicts.get? site.path = some v := by
  rcases judgingBefore_split capabilities bindings h
    with ⟨before, after, hsplit, hbefore, -, hafter⟩
  rw [hbefore] at hjudged
  rw [delegation_verdicts hsplit, List.foldl_cons]
  exact CallSite.foldl_judge_query h hafter hfield hjudged

/-- A table that is no query has no verdict when the query that reads it is judged. -/
theorem get?_judgingBefore_table (h : site ∈ e.querySites)
    (htable : ∀ s ∈ e.querySites, s.path ≠ site.path ++ [0]) :
    (judgingBefore capabilities bindings e site).verdicts.get? (site.path ++ [0]) = none := by
  rcases judgingBefore_split capabilities bindings h
    with ⟨before, -, -, hbefore, hdeeper, -⟩
  rw [hbefore]
  exact CallSite.get?_foldl_judge_table h htable hdeeper (OrderedMap.get?_empty _)

/-- A query gets a refusal when it is judged exactly when one of its units is refused, or when the
table that it reads was refused before. -/
theorem CallSite.exists_get?_judge (hquery : site.query? capabilities bindings = some q)
    (judging : Judging) :
    ∃ v, (site.judge capabilities bindings judging).verdicts.get? site.path = some v ∧
      (v.isDelegable = false ↔
        (∃ u ∈ site.units, (q.unitVerdict u).isDelegable = false) ∨
          judging.verdicts.Refuses (site.path ++ [0])) := by
  refine ⟨_, get?_judge_self hquery, ?_⟩
  rw [← Bool.not_eq_true, isDelegable_verdict, not_and_or, not_not, or_comm]
  simp

/-- No unit is refused twice. -/
theorem pairwise_refusedUnits (capabilities : CapabilityTable) (bindings : Bindings) (e : Expr) :
    (e.refusedUnits capabilities bindings).Pairwise fun r r' =>
      r.site.path ≠ r'.site.path ∨ r.unit.path ≠ r'.unit.path := by
  have hsite : ∀ {s : CallSite} {r : RefusedUnit},
      r ∈ (s.query? capabilities bindings).elim [] s.refusedUnits → r.site = s := by
    intro s r hr
    cases hquery : s.query? capabilities bindings with
    | none => simp [hquery] at hr
    | some q => exact (CallSite.mem_refusedUnits.mp (by simpa [hquery] using hr)).1
  rw [Expr.refusedUnits, List.pairwise_flatMap]
  refine ⟨fun s _ => ?_, (Expr.pairwise_path_querySites e).imp fun hne r hr r' hr' => ?_⟩
  · cases s.query? capabilities bindings with
    | none => exact .nil
    | some q =>
        refine List.Pairwise.filterMap _ (fun u u' hne r hr r' hr' => ?_) (CallSite.pairwise_units s)
        rcases Option.map_eq_some_iff.mp hr with ⟨_, -, rfl⟩
        rcases Option.map_eq_some_iff.mp hr' with ⟨_, -, rfl⟩
        exact Or.inr hne
  · rw [hsite hr, hsite hr']
    exact Or.inl hne

/-- The refused units of a formula, by the queries that they belong to. -/
theorem Expr.mem_refusedUnits {r : RefusedUnit} :
    r ∈ e.refusedUnits capabilities bindings ↔
      r.site ∈ e.querySites ∧ r.unit ∈ r.site.units ∧
        ∃ q, r.site.query? capabilities bindings = some q ∧
          q.unitVerdict r.unit = .refused r.reason := by
  rw [refusedUnits, List.mem_flatMap]
  constructor
  · rintro ⟨site, hsite, hr⟩
    cases hquery : site.query? capabilities bindings with
    | none => simp [hquery] at hr
    | some q =>
        rcases CallSite.mem_refusedUnits.mp (by simpa [hquery] using hr) with ⟨rfl, hu, hverdict⟩
        exact ⟨hsite, hu, q, hquery, hverdict⟩
  · rintro ⟨hsite, hu, q, hquery, hverdict⟩
    refine ⟨r.site, hsite, ?_⟩
    rw [hquery]
    exact CallSite.mem_refusedUnits.mpr ⟨rfl, hu, hverdict⟩

/-- The warnings of a formula are those about its refused units. -/
theorem diagnostics_perm_refusedUnits (capabilities : CapabilityTable) (bindings : Bindings)
    (e : Expr) : (delegation capabilities bindings e).diagnostics.Perm
      ((e.refusedUnits capabilities bindings).map RefusedUnit.warning) := by
  have hwarnings := CallSite.warnings_foldl_judge capabilities bindings e.querySites ⟨.empty, []⟩
  rw [List.nil_append, ← List.map_flatMap] at hwarnings
  rw [Expr.refusedUnits, ← hwarnings]
  exact sortDiagnostics_perm _

/-- The warnings of a formula, and the verdicts on its queries, unit by unit.  The warnings are those
about the refused units of its queries, one for each; it is found where the unit is.  When a query is
judged it gets a refusal exactly when one of its own units is refused, or when the table that it reads
was refused before; and this is its verdict in the end, unless another query takes it for a field to
sort by or for a column, and it is refused there. -/
theorem delegation_warns_by_unit (capabilities : CapabilityTable) (bindings : Bindings) (e : Expr) :
    (delegation capabilities bindings e).diagnostics.Perm
      ((e.refusedUnits capabilities bindings).map RefusedUnit.warning) ∧
    ((e.refusedUnits capabilities bindings).Pairwise fun r r' =>
      r.site.path ≠ r'.site.path ∨ r.unit.path ≠ r'.unit.path) ∧
    (∀ r, r ∈ e.refusedUnits capabilities bindings ↔
      r.site ∈ e.querySites ∧ r.unit ∈ r.site.units ∧
        ∃ q, r.site.query? capabilities bindings = some q ∧
          q.unitVerdict r.unit = .refused r.reason) ∧
    ∀ site ∈ e.querySites, ∀ q, site.query? capabilities bindings = some q →
      ∃ v, (site.judge capabilities bindings
          (judgingBefore capabilities bindings e site)).verdicts.get? site.path = some v ∧
        (v.isDelegable = false ↔
          (∃ u ∈ site.units, (q.unitVerdict u).isDelegable = false) ∨
            (judgingBefore capabilities bindings e site).verdicts.Refuses (site.path ++ [0])) ∧
        (¬ site.TakenForField capabilities bindings e →
          (delegation capabilities bindings e).verdicts.get? site.path = some v) ∧
        (site.TakenForField capabilities bindings e →
          (delegation capabilities bindings e).verdicts.Refuses site.path) := by
  refine ⟨diagnostics_perm_refusedUnits capabilities bindings e,
    pairwise_refusedUnits capabilities bindings e, fun r => Expr.mem_refusedUnits, ?_⟩
  intro site hsite q hquery
  rcases CallSite.exists_get?_judge hquery (judgingBefore capabilities bindings e site)
    with ⟨v, hjudged, hrefused⟩
  exact ⟨v, hjudged, hrefused, fun hfield => get?_delegation_of_judge hsite hfield hjudged,
    refuses_of_takenForField hsite⟩

/-! ## Conditions in one query, and a query in another one -/

/-- The comparison of the field with a number. -/
def compareStatus (op : Operator) : Expr :=
  .binary op statusField (.literal (.number (.whole 1) "1") default) default

/-- The query {lit}`Filter(Orders, And(Status = 1, !(Status > 1 || Status < 1)))`. -/
def filteredByMany : CallSite :=
  ⟨[], 0, "Filter",
    [.name (.plain "Orders") default [] default,
      .call "And" [compareStatus .equal,
        .unary .notSign
          (.binary .orSign (compareStatus .greater) (compareStatus .less) default) default]
        [] default], [], default⟩

/-- The warning that the field does not support an operator. -/
def statusWarning (spelling : String) : Diagnostic :=
  .report .nonDelegable default
    ("Clause cannot be delegated: field 'Status' does not support '" ++ spelling ++ "'")

/-- Of three comparisons under a conjunction, a negation and a disjunction, the two that the source
does not support are warned about, and nothing else is. -/
theorem filteredByMany_warned :
    (filteredByMany ∈ filteredByMany.expr.querySites ∧
      filteredByMany.query? orderCapabilities (orderBindings filteredByMany.expr) =
        some (orderQuery filteredByMany.expr)) ∧
    (delegation orderCapabilities (orderBindings filteredByMany.expr)
      filteredByMany.expr).diagnostics.Perm [statusWarning ">", statusWarning "<"] ∧
    ∃ v, (delegation orderCapabilities (orderBindings filteredByMany.expr)
        filteredByMany.expr).verdicts.get? filteredByMany.path = some v ∧
      v.isDelegable = false := by
  have hmem : filteredByMany ∈ filteredByMany.expr.querySites :=
    Expr.mem_querySites_iff.mpr ⟨rfl, rfl, by decide, rfl⟩
  have hrefused : (filteredByMany.expr.refusedUnits orderCapabilities
      (orderBindings filteredByMany.expr)).map RefusedUnit.warning =
        [statusWarning ">", statusWarning "<"] := by
    decide +kernel
  have hfield : ¬ filteredByMany.TakenForField orderCapabilities
      (orderBindings filteredByMany.expr) filteredByMany.expr := by
    rintro ⟨outer, -, -, i, -, hpath⟩
    simp [filteredByMany] at hpath
  rcases delegation_warns_by_unit orderCapabilities (orderBindings filteredByMany.expr)
    filteredByMany.expr with ⟨hwarnings, -, -, hverdicts⟩
  rcases hverdicts filteredByMany hmem (orderQuery filteredByMany.expr) rfl
    with ⟨v, -, hunits, hfinal, -⟩
  exact ⟨⟨hmem, rfl⟩, hrefused ▸ hwarnings, v, hfinal hfield, hunits.mpr (Or.inl (by decide))⟩

/-- A query that is taken for a field to sort by is refused in the report, although none of its units
is refused and the table that it reads has no verdict when it is judged. -/
theorem openOrders_refused_for_field :
    openOrders [1] 1 ∈ sortedByQuery.querySites ∧
    (openOrders [1] 1).query? orderCapabilities (orderBindings sortedByQuery) =
      some (orderQuery sortedByQuery) ∧
    (∀ u ∈ (openOrders [1] 1).units,
      ((orderQuery sortedByQuery).unitVerdict u).isDelegable = true) ∧
    ¬ (judgingBefore orderCapabilities (orderBindings sortedByQuery) sortedByQuery
      (openOrders [1] 1)).verdicts.Refuses [1, 0] ∧
    (delegation orderCapabilities (orderBindings sortedByQuery) sortedByQuery).verdicts.Refuses
      [1] := by
  have hinner : openOrders [1] 1 ∈ sortedByQuery.querySites :=
    Expr.mem_querySites_iff.mpr ⟨rfl, rfl, by decide, rfl⟩
  have houter : (⟨[], 0, "Sort", [.name (.plain "Orders") default [] default,
      (openOrders [1] 1).expr], [], default⟩ : CallSite) ∈ sortedByQuery.querySites :=
    Expr.mem_querySites_iff.mpr ⟨rfl, rfl, by decide, rfl⟩
  have hbefore : (judgingBefore orderCapabilities (orderBindings sortedByQuery) sortedByQuery
      (openOrders [1] 1)).verdicts.get? [1, 0] = none := by
    refine get?_judgingBefore_table hinner fun s hs hpath => ?_
    have hat := (Expr.mem_querySites_iff.mp hs).1
    rw [hpath] at hat
    exact absurd (Option.some.inj hat) (by simp [CallSite.expr])
  refine ⟨hinner, rfl, by decide, ?_, ?_⟩
  · rintro ⟨reason, hget⟩
    simp [hbefore] at hget
  · exact refuses_of_takenForField hinner
      ⟨_, houter, ⟨orderQuery sortedByQuery, rfl⟩, 1, Or.inl ⟨rfl, rfl⟩, rfl⟩

end FormulaLint
