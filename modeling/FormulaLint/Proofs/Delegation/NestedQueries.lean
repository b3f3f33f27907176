import FormulaLint.Proofs.CallsOfPart
import FormulaLint.Proofs.Delegation.InnerQueries

/-!
# Queries inside queries

A query may stand anywhere inside another one.  A condition is not looked into below a call that may
not run at a source, so the query around an inner one has nothing to say on the parts of it, and on
the inner query itself only what does not replace a verdict.  A sort expression and a column are
judged for good, however: a query that stands in their place loses the verdict it had.

Main results:

- Theorem {lit}`CallSite.judgement_on_query`: what a query may say on another one that it surrounds.
- Theorem {lit}`CallSite.foldl_judge_within`: the queries that bear on the parts of a query.
- Theorem {lit}`delegation_within_query`: the verdicts on a query and its parts inside a formula.
-/

namespace FormulaLint

namespace Expr

/-- Whether a path leads to a part without going through a call that may not run at a source. -/
def Reaches : Expr → Path → Prop
  | _, [] => True
  | e, i :: rest => e.isRefusedCall = false ∧ ∃ c, e.children[i]? = some c ∧ c.Reaches rest

/-- No part of a call that may not run at a source is reached. -/
theorem Reaches.eq_nil {e part : Expr} {p rel : Path} (h : e.Reaches (p ++ rel))
    (hpart : e.at? p = some part) (hrefused : part.isRefusedCall = true) : rel = [] := by
  induction p generalizing e with
  | nil =>
      obtain rfl : e = part := by simpa using hpart
      cases rel with
      | nil => rfl
      | cons i rest => simp [Reaches, hrefused] at h
  | cons i rest ih =>
      rcases h with ⟨-, c, hc, hreaches⟩
      rcases at?_cons.mp hpart with ⟨c', hc', hpart⟩
      obtain rfl : c = c' := Option.some.inj (hc.symm.trans hc')
      exact ih hreaches hpart

/-- A combination of conditions may run at a source. -/
theorem isRefusedCall_of_isCombinator {e : Expr} (h : e.isCombinator = true) :
    e.isRefusedCall = false := by
  cases e with
  | call function arguments qualifiers span =>
      simp only [isCombinator, Bool.and_eq_true, List.contains_iff_mem] at h
      have hmem : function ∈ delegableFunctions := List.mem_append_left _ h.1
      simp [isRefusedCall, Query.refusesFunction, List.isEmpty_iff.mp h.2, hmem]
  | _ => rfl

/-- A call of a query function may not run at a source. -/
theorem isRefusedCall_of_isQueryCall {e : Expr} (h : isQueryCall e = true) :
    e.isRefusedCall = true := by
  have hdisjoint : ∀ function ∈ queryFunctions, function ∉ delegableFunctions := by decide
  cases e with
  | call function arguments qualifiers span =>
      have hother := hdisjoint _ (List.contains_iff_mem.mp h)
      simp [isRefusedCall, Query.refusesFunction, hother]
  | _ => simp [isQueryCall] at h

end Expr

/-! ## Which parts are judged -/

namespace Query

variable {q : Query} {here : Path} {j : Judgement} {e : Expr}

/-- The judgements on an expression are about parts that are reached. -/
theorem judge_reaches (h : j ∈ (q.judge here e).judgements) :
    ∃ rel, e.Reaches rel ∧ j.path = here ++ rel := by
  induction e using Expr.children_induct generalizing here with
  | step e ih =>
      rcases mem_judge h with ⟨hpath, -⟩ | ⟨hrefused, i, c, hc, hj⟩
      · exact ⟨[], trivial, by simpa using hpath⟩
      · rcases ih c (List.mem_of_getElem? hc) hj with ⟨rel, hreaches, hpath⟩
        exact ⟨i :: rel, ⟨hrefused, c, hc, hreaches⟩, by simpa using hpath⟩

/-- The judgements on a clause are about parts that are reached. -/
theorem clause_reaches (h : j ∈ (q.clause here e).judgements) :
    ∃ rel, e.Reaches rel ∧ j.path = here ++ rel := by
  induction e using Expr.children_induct generalizing here with
  | step e ih =>
      cases hcombinator : e.isCombinator with
      | false =>
          rw [clause_of_leaf hcombinator] at h
          exact judge_reaches h
      | true =>
          have hrefused := Expr.isRefusedCall_of_isCombinator hcombinator
          rcases mem_clause hcombinator h with hpath | ⟨i, c, hc, hj⟩
          · exact ⟨[], trivial, by simpa using hpath⟩
          · rcases ih c (List.mem_of_getElem? hc) hj with ⟨rel, hreaches, hpath⟩
            exact ⟨i :: rel, ⟨hrefused, c, hc, hreaches⟩, by simpa using hpath⟩

end Query

/-! ## Arguments that have to be fields or columns -/

namespace CallSite

/-- Whether a query takes the argument at a position as a field to sort by or as a column. -/
def takesField (site : CallSite) (i : Nat) : Prop :=
  site.function = "Sort" ∧ i = 1 ∨ site.function = "SortByColumns" ∧ i % 2 = 1 ∨
    site.function = "ShowColumns" ∧ 1 ≤ i

variable {e : Expr} {site inner outer : CallSite} {q : Query} {capabilities : CapabilityTable}
  {bindings : Bindings} {judging judging' : Judging} {j : Judgement}

/-- A query takes a field where it takes an argument for something other than a condition. -/
theorem takesField_iff {i : Nat} :
    site.takesField i ↔ ∃ role, site.role? i = some role ∧ role ≠ .condition := by
  unfold takesField role?
  split
  · rename_i hpredicate
    have hother : ∀ name ∈ predicateFunctions, name ≠ "Sort" ∧ name ≠ "SortByColumns" ∧
        name ≠ "ShowColumns" := by decide
    have hapart := hother _ (List.contains_iff_mem.mp hpredicate)
    simp [hapart]
  split
  · rename_i hlookUp
    simp [hlookUp]
  split
  · rename_i hsort
    simp [hsort]
  split
  · rename_i hcolumns
    simp [hcolumns]
  · rename_i hsort hcolumns
    simp [hsort, hcolumns]

/-- The arguments of a query and their parts that its judgements are about, and which of them are
judged for good. -/
theorem rulings_reach (h : j ∈ (site.rulings q).flatMap (·.judgements)) :
    ∃ i argument rel part, site.arguments[i]? = some argument ∧ argument.Reaches rel ∧
      argument.at? rel = some part ∧ j.path = site.path ++ i :: rel ∧
      (j.final = true → part.isCombinator = true ∨ rel = [] ∧ site.takesField i) := by
  rcases List.mem_flatMap.mp h with ⟨ruling, hruling, hj⟩
  rcases mem_rulings.mp hruling with ⟨i, argument, role, hargument, hrole, rfl⟩
  cases role with
  | condition =>
      rcases Query.clause_reaches hj with ⟨rel, hreaches, hpath⟩
      rcases Query.clause_writes hj with ⟨rel', part, hpart, hpath', hfinal⟩
      obtain rfl : rel = rel' := List.append_cancel_left (hpath.symm.trans hpath')
      exact ⟨i, argument, rel, part, hargument, hreaches, hpart, by simpa using hpath,
        fun h => Or.inl (hfinal h)⟩
  | field | column use =>
      have hfield : site.takesField i := takesField_iff.mpr ⟨_, hrole, by simp⟩
      obtain rfl := List.mem_singleton.mp hj
      exact ⟨i, argument, [], argument, hargument, trivial, by simp, rfl,
        fun _ => Or.inr ⟨rfl, hfield⟩⟩

/-! ## What a query says on another one -/

/-- A call that queries a source may not run at a source. -/
theorem isRefusedCall_expr (h : site ∈ e.querySites) : site.expr.isRefusedCall = true :=
  Expr.isRefusedCall_of_isQueryCall
    (List.contains_iff_mem.mpr (Expr.mem_querySites_iff.mp h).2.2.1)

/-- A query that is not within another one judges no part of it, and the query itself only when it
surrounds it; for good only where it takes a field or column. -/
theorem judgement_on_query (hsite : site ∈ e.querySites) (hinner : inner ∈ e.querySites)
    (houtside : site.isWithin inner.path = false)
    (h : j ∈ (site.rulings q).flatMap (·.judgements)) {rel : Path}
    (hpath : j.path = inner.path ++ rel) :
    rel = [] ∧ (∃ i rest, inner.path = site.path ++ i :: rest) ∧
      (j.final = true → ∃ i, site.takesField i ∧ inner.path = site.path ++ [i]) := by
  rcases rulings_reach h with ⟨i, argument, rel', part, hargument, hreaches, hpart, hpath', hfinal⟩
  rw [hpath] at hpath'
  -- the path to the inner query goes on from the one to the query that judges
  rcases path_of_not_isWithin houtside hpath' with ⟨rest, hinnerPath, rfl⟩
  have hat : argument.at? rest = some inner.expr := by
    have hinnerAt := (Expr.mem_querySites_iff.mp hinner).1
    rw [hinnerPath, Expr.at?_append_of (Expr.mem_querySites_iff.mp hsite).1] at hinnerAt
    rcases Expr.at?_cons.mp hinnerAt with ⟨c, hc, hat⟩
    obtain rfl : c = argument := Option.some.inj (hc.symm.trans hargument)
    exact hat
  obtain rfl : rel = [] := hreaches.eq_nil hat (isRefusedCall_expr hinner)
  refine ⟨rfl, ⟨i, rest, hinnerPath⟩, fun h => ?_⟩
  rw [List.append_nil, hat] at hpart
  obtain rfl := Option.some.inj hpart
  rcases hfinal h with hcombinator | ⟨hrel, hfield⟩
  · simp [not_isCombinator hinner] at hcombinator
  · rw [List.append_nil] at hrel
    exact ⟨i, hfield, by rw [hinnerPath, hrel]⟩

/-! ## Verdicts within a part -/

end CallSite

/-- Whether two lists of verdicts agree on the part at a path and on its parts. -/
def Verdicts.AgreeWithin (path : Path) (verdicts verdicts' : Verdicts) : Prop :=
  ∀ rel, verdicts.get? (path ++ rel) = verdicts'.get? (path ++ rel)

/-- The same judgements keep verdicts in agreement. -/
theorem Verdicts.AgreeWithin.foldl {path : Path} {verdicts verdicts' : Verdicts}
    (h : verdicts.AgreeWithin path verdicts') (js : List Judgement) :
    (js.foldl Judgement.apply verdicts).AgreeWithin path (js.foldl Judgement.apply verdicts') := by
  induction js generalizing verdicts verdicts' with
  | nil => exact h
  | cons j rest ih =>
      refine ih fun rel => ?_
      rw [Judgement.get?_apply, Judgement.get?_apply, h rel]

namespace CallSite

variable {e : Expr} {site inner outer : CallSite} {q : Query} {capabilities : CapabilityTable}
  {bindings : Bindings} {judging judging' : Judging} {sites before after : List CallSite}

/-- A query within a part keeps verdicts in agreement there. -/
theorem judge_agreeWithin {path : Path} (hwithin : site.isWithin path = true)
    (h : judging.verdicts.AgreeWithin path judging'.verdicts) :
    (judge capabilities bindings judging site).verdicts.AgreeWithin path
      (judge capabilities bindings judging' site).verdicts := by
  rcases isWithin_iff.mp hwithin with ⟨rel, hrel⟩
  unfold judge
  split
  · exact h
  · have hinner : ∀ q, site.innerVerdict q judging.verdicts =
        site.innerVerdict q judging'.verdicts := by
      intro q
      have hfirst := h (rel ++ [0])
      rw [← List.append_assoc, ← hrel] at hfirst
      rw [innerVerdict, innerVerdict, hfirst]
    simp only [hinner]
    exact h.foldl _

/-- A query that is not within another one leaves the verdicts on the other one and its parts alone,
unless it surrounds the other one and speaks of it. -/
theorem get?_judge_outside (hsite : site ∈ e.querySites) (hinner : inner ∈ e.querySites)
    (houtside : site.isWithin inner.path = false) (rel : Path)
    (h : ∀ q, site.query? capabilities bindings = some q → rel = [] →
      (∃ i rest, inner.path = site.path ++ i :: rest) → judging.verdicts.get? inner.path ≠ none ∧
        ∀ i, site.takesField i → inner.path ≠ site.path ++ [i]) :
    (judge capabilities bindings judging site).verdicts.get? (inner.path ++ rel) =
      judging.verdicts.get? (inner.path ++ rel) := by
  unfold judge
  split
  · rfl
  · rename_i q hquery
    refine Judgement.get?_foldl_induct
      (P := (· = judging.verdicts.get? (inner.path ++ rel))) rfl fun j hj hpath v hv hreplaces => ?_
    exfalso
    subst hv
    rcases List.mem_append.mp hj with hj | hj
    · rcases judgement_on_query hsite hinner houtside hj hpath with ⟨rfl, hinside, hfinal⟩
      rcases h q hquery rfl hinside with ⟨hjudged, hfields⟩
      rcases hreplaces with hreplaces | hnone
      · rcases hfinal hreplaces with ⟨i, hfield, hplace⟩
        exact hfields i hfield hplace
      · exact hjudged (by simpa using hnone)
    · obtain rfl := List.mem_singleton.mp hj
      have hwithin : site.isWithin inner.path = true := isWithin_iff.mpr ⟨rel, hpath⟩
      simp [hwithin] at houtside

/-- Among queries that do not surround a query, only those within it bear on it and its parts. -/
theorem foldl_judge_within (hinner : inner ∈ e.querySites)
    (hsites : ∀ s ∈ sites, s ∈ e.querySites ∧ ∀ i rest, inner.path ≠ s.path ++ i :: rest)
    (h : judging.verdicts.AgreeWithin inner.path judging'.verdicts) :
    (sites.foldl (judge capabilities bindings) judging).verdicts.AgreeWithin inner.path
      ((sites.filter (·.isWithin inner.path)).foldl (judge capabilities bindings)
        judging').verdicts := by
  induction sites generalizing judging judging' with
  | nil => exact h
  | cons s rest ih =>
      rcases hsites s (List.mem_cons_self ..) with ⟨hs, hapart⟩
      have hrest := fun s' hs' => hsites s' (List.mem_cons_of_mem s hs')
      rw [List.filter_cons]
      split
      · rename_i hwithin
        exact ih hrest (judge_agreeWithin hwithin h)
      · rename_i hwithin
        refine ih hrest fun rel => ?_
        rw [get?_judge_outside hs hinner (by simpa using hwithin) rel
          fun _ _ _ ⟨i, rest, hinside⟩ => absurd hinside (hapart i rest)]
        exact h rel

/-- Queries that are not within a query leave its parts alone. -/
theorem foldl_judge_parts (hinner : inner ∈ e.querySites)
    (hsites : ∀ s ∈ sites, s ∈ e.querySites ∧ s.isWithin inner.path = false) {rel : Path}
    (hrel : rel ≠ []) :
    (sites.foldl (judge capabilities bindings) judging).verdicts.get? (inner.path ++ rel) =
      judging.verdicts.get? (inner.path ++ rel) := by
  induction sites generalizing judging with
  | nil => rfl
  | cons s rest ih =>
      rcases hsites s (List.mem_cons_self ..) with ⟨hs, houtside⟩
      rw [List.foldl_cons, ih fun s' hs' => hsites s' (List.mem_cons_of_mem s hs'),
        get?_judge_outside hs hinner houtside rel fun _ _ hnil => absurd hnil hrel]

/-- Whether a query stands where another query takes a field to sort by or a column. -/
def TakenForField (capabilities : CapabilityTable) (bindings : Bindings) (e : Expr)
    (inner : CallSite) : Prop :=
  ∃ outer ∈ e.querySites, (∃ q, outer.query? capabilities bindings = some q) ∧
    ∃ i, outer.takesField i ∧ inner.path = outer.path ++ [i]

/-- Queries that are not within a query which was judged leave its verdict alone, if it is not taken
for a field. -/
theorem foldl_judge_query {v : Verdict} (hinner : inner ∈ e.querySites)
    (hsites : ∀ s ∈ sites, s ∈ e.querySites ∧ s.isWithin inner.path = false)
    (hfield : ¬ inner.TakenForField capabilities bindings e)
    (h : judging.verdicts.get? inner.path = some v) :
    (sites.foldl (judge capabilities bindings) judging).verdicts.get? inner.path = some v := by
  induction sites generalizing judging with
  | nil => exact h
  | cons s rest ih =>
      rcases hsites s (List.mem_cons_self ..) with ⟨hs, houtside⟩
      refine ih (fun s' hs' => hsites s' (List.mem_cons_of_mem s hs')) ?_
      have hstep : (judge capabilities bindings judging s).verdicts.get? (inner.path ++ []) =
          judging.verdicts.get? (inner.path ++ []) :=
        get?_judge_outside hs hinner houtside [] fun q hquery _ _ =>
          ⟨by simp [h], fun i hi hpath => hfield ⟨s, hs, ⟨q, hquery⟩, i, hi, hpath⟩⟩
      rw [List.append_nil] at hstep
      rw [hstep, h]

/-! ## Queries that are taken for fields -/

/-- An argument that is taken for a field is judged for good. -/
theorem exists_final_of_takesField {i : Nat} {argument : Expr} (hfield : site.takesField i)
    (hargument : site.arguments[i]? = some argument) :
    ∃ j ∈ (site.rulings q).flatMap (·.judgements), j.path = site.path ++ [i] ∧
      j.final = true := by
  rcases takesField_iff.mp hfield with ⟨role, hrole, hcondition⟩
  have hruling := mem_rulings (q := q).mpr ⟨i, argument, role, hargument, hrole, rfl⟩
  cases role with
  | condition => exact absurd rfl hcondition
  | field | column use =>
      exact ⟨_, List.mem_flatMap.mpr ⟨_, hruling, List.mem_singleton.mpr rfl⟩, rfl, rfl⟩

end CallSite

/-- A final judgement is seen if all final judgements on the part say the same. -/
theorem Judgement.get?_foldl_of_mem {P : Verdict → Prop} {verdicts : Verdicts} {j : Judgement}
    {js : List Judgement} (hj : j ∈ js) (hfinal : j.final = true)
    (hall : ∀ j' ∈ js, j'.path = j.path → j'.final = true → P j'.verdict) :
    ∃ v, (js.foldl apply verdicts).get? j.path = some v ∧ P v := by
  rcases List.append_of_mem hj with ⟨before, after, rfl⟩
  rw [List.foldl_append, List.foldl_cons]
  refine get?_foldl_induct (P := fun found => ∃ v, found = some v ∧ P v) ?_ ?_
  · rw [get?_apply, if_pos ⟨rfl, Or.inl hfinal⟩]
    exact ⟨j.verdict, rfl, hall j hj rfl hfinal⟩
  · rintro j' hj' hpath _ ⟨v, rfl, -⟩ hreplaces
    have hmem : j' ∈ before ++ j :: after :=
      List.mem_append_right _ (List.mem_cons_of_mem j hj')
    exact ⟨_, rfl, hall j' hmem hpath (by simpa using hreplaces)⟩

namespace CallSite

variable {e : Expr} {inner outer : CallSite} {q : Query} {capabilities : CapabilityTable}
  {bindings : Bindings} {judging : Judging}

/-- A query is refused where another one takes a field. -/
theorem judge_refuses_field (houter : outer ∈ e.querySites) (hinner : inner ∈ e.querySites)
    (hquery : outer.query? capabilities bindings = some q) {i : Nat} (hfield : outer.takesField i)
    (hpath : inner.path = outer.path ++ [i]) :
    (judge capabilities bindings judging outer).verdicts.Refuses inner.path := by
  have hat := (Expr.mem_querySites_iff.mp hinner).1
  have hargument : outer.arguments[i]? = some inner.expr := by
    rw [hpath, Expr.at?_append_of (Expr.mem_querySites_iff.mp houter).1] at hat
    rcases Expr.at?_cons.mp hat with ⟨c, hc, hnil⟩
    rw [Expr.at?_nil, Option.some.injEq] at hnil
    exact hnil ▸ hc
  -- the judgement on the argument as a field or column
  rcases exists_final_of_takesField (q := q) hfield hargument with ⟨j, hj, hjpath, hfinal⟩
  rw [← hpath] at hjpath
  have hrefused : ∀ j' ∈ (outer.rulings q).flatMap (·.judgements), j'.path = j.path →
      j'.final = true → ∃ reason, j'.verdict = .refused reason := by
    intro j' hj' hpath' hfinal'
    rcases rulings_writes hj' with ⟨i', argument, rel, part, -, hargument', hpart, hwritten, hgood⟩
    rw [hpath', hjpath, hpath] at hwritten
    obtain ⟨rfl, rfl⟩ := List.cons.inj (List.append_cancel_left hwritten)
    obtain rfl := Option.some.inj (hargument.symm.trans hargument')
    obtain rfl := Option.some.inj ((Expr.at?_nil inner.expr).symm.trans hpart)
    rcases hgood hfinal' with hcombinator | ⟨-, hrefuses⟩
    · simp [not_isCombinator hinner] at hcombinator
    · cases hverdict : j'.verdict with
      | delegable => simp [hverdict, expr, Expr.isCall] at hrefuses
      | refused reason => exact ⟨reason, rfl⟩
  -- the judgement of the outer query on itself is about another part
  let own : Judgement := ⟨outer.path, (outer.innerVerdict q judging.verdicts).andThen
    (.all ((outer.rulings q).map (·.verdict))), true⟩
  have hall : ∀ j' ∈ (outer.rulings q).flatMap (·.judgements) ++ [own], j'.path = j.path →
      j'.final = true → ∃ reason, j'.verdict = .refused reason := by
    intro j' hj' hpath' hfinal'
    rcases List.mem_append.mp hj' with hj' | hj'
    · exact hrefused j' hj' hpath' hfinal'
    · obtain rfl := List.mem_singleton.mp hj'
      rw [hjpath, hpath] at hpath'
      simp [own] at hpath'
  have hgot : ∃ v, (((outer.rulings q).flatMap (·.judgements) ++ [own]).foldl Judgement.apply
      judging.verdicts).get? j.path = some v ∧ ∃ reason, v = .refused reason :=
    Judgement.get?_foldl_of_mem (P := fun v => ∃ reason, v = .refused reason)
      (List.mem_append_left [own] hj) hfinal hall
  rcases hgot with ⟨_, hget, reason, rfl⟩
  rw [hjpath] at hget
  exact ⟨reason, by simpa only [judge, hquery] using hget⟩

end CallSite

/-! ## Verdicts on a query inside a formula -/

section

variable {capabilities : CapabilityTable} {bindings : Bindings} {e : Expr} {site inner : CallSite}
  {q : Query}

/-- The queries of a formula that surround a query or are listed behind it are not within it. -/
theorem CallSite.not_isWithin_of_depth_le (hsite : site ∈ e.querySites) (hinner : inner ∈ e.querySites)
    (hdepth : site.depth ≤ inner.depth) (hpath : site.path ≠ inner.path) :
    site.isWithin inner.path = false := by
  by_contra hwithin
  rcases isWithin_iff.mp (by simpa using hwithin) with ⟨rel, hrel⟩
  cases rel with
  | nil => exact hpath (by simpa using hrel)
  | cons i rest =>
      have hlt := Expr.depth_lt_of_inside hinner hsite hrel (List.cons_ne_nil i rest)
      omega

/-- When a query was judged, with all queries listed in front of it, the verdicts on it and its parts
are those of its own analysis. -/
theorem agreeWithin_delegationAt {before after : List CallSite} (hinner : inner ∈ e.querySites)
    (hsplit : e.querySites = before ++ inner :: after)
    (hbefore : ∀ s ∈ before, inner.depth ≤ s.depth)
    (hafter : ∀ s ∈ after, s.isWithin inner.path = false) :
    ((before ++ [inner]).foldl (CallSite.judge capabilities bindings)
      ⟨.empty, []⟩).verdicts.AgreeWithin inner.path
        (delegationAt capabilities bindings inner.path inner.expr).verdicts := by
  have hat := (Expr.mem_querySites_iff.mp hinner).1
  have hsites : ∀ s ∈ before ++ [inner],
      s ∈ e.querySites ∧ ∀ i rest, inner.path ≠ s.path ++ i :: rest := by
    intro s hs
    have hmem : s ∈ e.querySites := by
      rw [hsplit, List.append_cons]
      exact List.mem_append_left after hs
    refine ⟨hmem, fun i rest hpath => ?_⟩
    have hlt := Expr.depth_lt_of_inside hmem hinner hpath (List.cons_ne_nil i rest)
    rcases List.mem_append.mp hs with hs | hs
    · exact absurd (hbefore s hs) (by omega)
    · obtain rfl := List.mem_singleton.mp hs
      omega
  have hnone : after.filter (·.isWithin inner.path) = [] :=
    List.filter_eq_nil_iff.mpr fun s hs => by simp [hafter s hs]
  have hfilter : (before ++ [inner]).filter (·.isWithin inner.path) =
      (inner.expr.querySitesAt inner.path).map (·.deepen (e.callDepth inner.path)) := by
    have hwhole : e.querySites.filter (·.isWithin inner.path) =
        (before ++ [inner]).filter (·.isWithin inner.path) := by
      rw [hsplit, List.append_cons before inner after, List.filter_append, hnone, List.append_nil]
    rw [← Expr.filter_querySites hat, hwhole]
  have hagree : ((before ++ [inner]).foldl (CallSite.judge capabilities bindings)
      ⟨.empty, []⟩).verdicts.AgreeWithin inner.path
        (((before ++ [inner]).filter (·.isWithin inner.path)).foldl
          (CallSite.judge capabilities bindings) ⟨.empty, []⟩).verdicts :=
    CallSite.foldl_judge_within hinner hsites fun rel => rfl
  rw [hfilter, List.foldl_map] at hagree
  exact hagree

/-- A query that is taken for a field is refused. -/
theorem refuses_of_takenForField (hinner : inner ∈ e.querySites)
    (htaken : inner.TakenForField capabilities bindings e) :
    (delegation capabilities bindings e).verdicts.Refuses inner.path := by
  rcases htaken with ⟨outer, houter, ⟨q, hquery⟩, i, hfield, hpath⟩
  have hdeeper := Expr.depth_lt_of_inside houter hinner hpath (List.cons_ne_nil i [])
  rcases Expr.querySites_split_of_lt hinner houter hdeeper
    with ⟨before, between, after, hsplit, hothers, -⟩
  have hlast : e.querySites = (before ++ inner :: between) ++ outer :: after := by
    simpa using hsplit
  rw [delegation_verdicts hlast, List.foldl_cons]
  refine CallSite.foldl_judge_refuses hinner (fun s hs => ⟨?_, hothers s ?_⟩)
    (CallSite.judge_refuses_field houter hinner hquery hfield hpath)
  · rw [hlast]
    exact List.mem_append_right _ (List.mem_cons_of_mem _ hs)
  · exact List.mem_append_right _ (List.mem_cons_of_mem _ hs)

/-- The parts of a query inside a formula have the verdicts that they have when the query is judged by
itself, wherever it stands.  So has the query, unless another query takes it for a field to sort by or
for a column, and is refused there. -/
theorem delegation_within_query (capabilities : CapabilityTable) (bindings : Bindings) (e : Expr)
    (inner : CallSite) (q : Query) (hinner : inner ∈ e.querySites)
    (hquery : inner.query? capabilities bindings = some q) :
    ∃ report, delegationOfCall capabilities bindings inner.path inner.expr = .ok report ∧
      (∀ rel, rel ≠ [] → (delegation capabilities bindings e).verdicts.get? (inner.path ++ rel) =
        report.verdicts.get? (inner.path ++ rel)) ∧
      (¬ inner.TakenForField capabilities bindings e →
        (delegation capabilities bindings e).verdicts.get? inner.path =
          report.verdicts.get? inner.path) ∧
      (inner.TakenForField capabilities bindings e →
        (delegation capabilities bindings e).verdicts.Refuses inner.path) := by
  rcases Expr.querySites_split hinner with ⟨before, after, hsplit, hbefore, hafter, -⟩
  have hmem : ∀ s ∈ after, s ∈ e.querySites := fun s hs => by
    rw [hsplit]
    exact List.mem_append_right _ (List.mem_cons_of_mem _ hs)
  have houtside : ∀ s ∈ after, s.isWithin inner.path = false := fun s hs =>
    CallSite.not_isWithin_of_depth_le (hmem s hs) hinner (hafter s hs).1 (hafter s hs).2
  have hsites : ∀ s ∈ after, s ∈ e.querySites ∧ s.isWithin inner.path = false :=
    fun s hs => ⟨hmem s hs, houtside s hs⟩
  have hown : ((before ++ [inner]).foldl (CallSite.judge capabilities bindings)
      ⟨.empty, []⟩).verdicts.AgreeWithin inner.path
        (delegationAt capabilities bindings inner.path inner.expr).verdicts :=
    agreeWithin_delegationAt hinner hsplit hbefore houtside
  have hverdicts : (delegation capabilities bindings e).verdicts =
      (after.foldl (CallSite.judge capabilities bindings) ((before ++ [inner]).foldl
        (CallSite.judge capabilities bindings) ⟨.empty, []⟩)).verdicts :=
    delegation_verdicts (hsplit.trans (List.append_cons before inner after))
  have hcall : isQueryCall inner.expr = true :=
    List.contains_iff_mem.mpr (Expr.mem_querySites_iff.mp hinner).2.2.1
  refine ⟨delegationAt capabilities bindings inner.path inner.expr, if_pos hcall,
    fun rel hrel => ?_, fun hfield => ?_, refuses_of_takenForField hinner⟩
  · rw [hverdicts, CallSite.foldl_judge_parts hinner hsites hrel, hown rel]
  · have hself := hown []
    rw [List.append_nil] at hself
    obtain ⟨v, hjudged⟩ : ∃ v, ((before ++ [inner]).foldl (CallSite.judge capabilities bindings)
        ⟨.empty, []⟩).verdicts.get? inner.path = some v := by
      rw [List.foldl_append]
      exact ⟨_, CallSite.get?_judge_self hquery⟩
    rw [hverdicts, CallSite.foldl_judge_query hinner hsites hfield hjudged, ← hself, hjudged]

end

/-- The query {lit}`Filter(Orders, Status = 1)`. -/
def openOrders (path : Path) (depth : Nat) : CallSite :=
  ⟨path, depth, "Filter",
    [.name (.plain "Orders") default [] default,
      .binary .equal statusField (.literal (.number (.whole 1) "1") default) default], [],
    default⟩

/-- The query {lit}`Filter(Orders, Status = CountRows(Filter(Orders, Status = 1)))`. -/
def filteredByCount : Expr :=
  .call "Filter"
    [.name (.plain "Orders") default [] default,
      .binary .equal statusField
        (.call "CountRows" [(openOrders [1, 1, 0] 2).expr] [] default) default] [] default

/-- The query {lit}`Sort(Orders, Filter(Orders, Status = 1))`. -/
def sortedByQuery : Expr :=
  .call "Sort" [.name (.plain "Orders") default [] default, (openOrders [1] 1).expr] [] default

/-- A query in a condition keeps its own verdicts. -/
theorem filteredByCount_within :
    (openOrders [1, 1, 0] 2 ∈ filteredByCount.querySites ∧
      (openOrders [1, 1, 0] 2).query? orderCapabilities (orderBindings filteredByCount) =
        some (orderQuery filteredByCount)) ∧
      ∃ report, delegationOfCall orderCapabilities (orderBindings filteredByCount) [1, 1, 0]
          (openOrders [1, 1, 0] 2).expr = .ok report ∧
        (∀ rel, rel ≠ [] → (delegation orderCapabilities (orderBindings filteredByCount)
            filteredByCount).verdicts.get? ([1, 1, 0] ++ rel) =
          report.verdicts.get? ([1, 1, 0] ++ rel)) ∧
        (¬ (openOrders [1, 1, 0] 2).TakenForField orderCapabilities
            (orderBindings filteredByCount) filteredByCount →
          (delegation orderCapabilities (orderBindings filteredByCount)
            filteredByCount).verdicts.get? [1, 1, 0] = report.verdicts.get? [1, 1, 0]) ∧
        ((openOrders [1, 1, 0] 2).TakenForField orderCapabilities
            (orderBindings filteredByCount) filteredByCount →
          (delegation orderCapabilities (orderBindings filteredByCount)
            filteredByCount).verdicts.Refuses [1, 1, 0]) := by
  have hmem : openOrders [1, 1, 0] 2 ∈ filteredByCount.querySites :=
    Expr.mem_querySites_iff.mpr ⟨rfl, rfl, by decide, rfl⟩
  exact ⟨⟨hmem, rfl⟩, delegation_within_query orderCapabilities (orderBindings filteredByCount)
    filteredByCount (openOrders [1, 1, 0] 2) (orderQuery filteredByCount) hmem rfl⟩

/-- A query that can run by itself is refused as a sort expression, although it is a query of its
own. -/
theorem sortedByQuery_loses :
    openOrders [1] 1 ∈ sortedByQuery.querySites ∧
    (openOrders [1] 1).query? orderCapabilities (orderBindings sortedByQuery) =
      some (orderQuery sortedByQuery) ∧
    (∃ report, delegationOfCall orderCapabilities (orderBindings sortedByQuery) [1]
      (openOrders [1] 1).expr = .ok report ∧ report.verdicts.get? [1] = some .delegable) ∧
    (delegation orderCapabilities (orderBindings sortedByQuery) sortedByQuery).verdicts.Refuses
      [1] := by
  have hinner : openOrders [1] 1 ∈ sortedByQuery.querySites :=
    Expr.mem_querySites_iff.mpr ⟨rfl, rfl, by decide, rfl⟩
  have houter : (⟨[], 0, "Sort", [.name (.plain "Orders") default [] default,
      (openOrders [1] 1).expr], [], default⟩ : CallSite) ∈ sortedByQuery.querySites :=
    Expr.mem_querySites_iff.mpr ⟨rfl, rfl, by decide, rfl⟩
  refine ⟨hinner, rfl, ⟨_, rfl, ?_⟩, ?_⟩
  · decide +kernel
  · exact refuses_of_takenForField hinner
      ⟨_, houter, ⟨orderQuery sortedByQuery, rfl⟩, 1, Or.inl ⟨rfl, rfl⟩, rfl⟩

end FormulaLint
