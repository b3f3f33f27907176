import FormulaLint.Proofs.Calls
import FormulaLint.Proofs.Delegation.Arguments
import FormulaLint.Proofs.Delegation.Policy

/-!
# Which verdicts a query passes

The judgements of a query are about parts of its arguments behind the first, and about the call
itself.  A verdict that is there already is replaced only by a final judgement: on a combination of
conditions, on an argument that has to be a column or a field, or on the call itself.  So a query
that was judged keeps its verdict, unless it stands where a field is expected; there it is refused.

Main results:

- Theorem {lit}`Judgement.get?_foldl_induct`: what judgements make of the verdict on a part.
- Theorem {lit}`Query.judge_writes`: the judgements on an expression.
- Theorem {lit}`Query.clause_writes`: the judgements on a clause.
- Theorem {lit}`CallSite.rulings_writes`: the judgements on the arguments of a query.
- Theorem {lit}`CallSite.get?_judge_self`: the verdict of a query on its own call.
- Theorem {lit}`CallSite.get?_foldl_judge_induct`: what queries make of the verdict on another call.
-/

namespace FormulaLint

/-! ## Taking up judgements -/

namespace Judgement

variable {verdicts : Verdicts} {path : Path}

/-- A judgement is seen at its own path, if it is final or the first one there. -/
theorem get?_apply (verdicts : Verdicts) (j : Judgement) (path : Path) :
    (apply verdicts j).get? path =
      if j.path = path ∧ (j.final = true ∨ verdicts.get? path = none) then some j.verdict
      else verdicts.get? path := by
  by_cases hpath : j.path = path
  · subst hpath
    cases hfinal : j.final <;> simp [apply, hfinal, OrderedMap.get?_insert,
      OrderedMap.get?_insertIfNew]
  · cases hfinal : j.final <;> simp [apply, hfinal, hpath, OrderedMap.get?_insert,
      OrderedMap.get?_insertIfNew]

/-- The parts with verdicts after a judgement. -/
theorem keys_apply (verdicts : Verdicts) (j : Judgement) :
    (apply verdicts j).keys =
      if j.path ∈ verdicts.keys then verdicts.keys else verdicts.keys ++ [j.path] := by
  cases hfinal : j.final with
  | true => simp [apply, hfinal, OrderedMap.keys_insert]
  | false => simp [apply, hfinal, OrderedMap.keys_insertIfNew]

/-- What holds of the verdict on a part holds after a list of judgements, if every judgement on that
part that can replace such a verdict has it too. -/
theorem get?_foldl_induct {P : Option Verdict → Prop} {js : List Judgement}
    (h : P (verdicts.get? path))
    (hstep : ∀ j ∈ js, j.path = path → ∀ v, P v → j.final = true ∨ v = none →
      P (some j.verdict)) :
    P ((js.foldl apply verdicts).get? path) := by
  induction js generalizing verdicts with
  | nil => exact h
  | cons j rest ih =>
      refine ih ?_ fun j hj => hstep j (List.mem_cons_of_mem _ hj)
      rw [get?_apply]
      split
      · rename_i hwrites
        exact hstep j (List.mem_cons_self ..) hwrites.1 _ h hwrites.2
      · exact h

end Judgement

/-! ## Judgements on expressions and clauses -/

/-- Whether an expression is a call that may not run at a source. -/
def Expr.isRefusedCall : Expr → Bool
  | call function _ qualifiers _ => Query.refusesFunction function qualifiers
  | _ => false

namespace Query

variable {q : Query} {here : Path} {j : Judgement}

/-- The judgements on children are those on each child. -/
theorem judgements_judgeAll (index : Nat) (es : List Expr) :
    (judgeAll q here index es).judgements =
      (es.zipIdx index).flatMap fun c => (q.judge (here ++ [c.2]) c.1).judgements := by
  induction es generalizing index with
  | nil => rfl
  | cons e rest ih => rw [judgeAll, ih, List.zipIdx_cons, List.flatMap_cons]

/-- The judgements on an expression are those on its children, which a call that may not run at a
source does not have, and one on itself. -/
theorem judgements_judge (e : Expr) :
    (q.judge here e).judgements = (if e.isRefusedCall then [] else
      e.children.zipIdx.flatMap fun c => (q.judge (here ++ [c.2]) c.1).judgements) ++
        [tentative here (q.judge here e).verdict] := by
  cases e with
  | call function arguments qualifiers span =>
      by_cases hrefused : refusesFunction function qualifiers = true
      · simp [judge, Expr.isRefusedCall, hrefused]
      · simp [judge, Expr.isRefusedCall, hrefused, Judged.close, judgements_judgeAll, Expr.children]
  | _ => simp [judge, Expr.isRefusedCall, Judged.close, Expr.children, judgeFields_eq,
      judgements_judgeAll]

/-- A judgement on an expression is about the expression itself, and then not final, or about a part
of a child; of a call that may not run at a source no child is judged. -/
theorem mem_judge {e : Expr} (h : j ∈ (q.judge here e).judgements) :
    j.path = here ∧ j.final = false ∨ e.isRefusedCall = false ∧
      ∃ i c, e.children[i]? = some c ∧ j ∈ (q.judge (here ++ [i]) c).judgements := by
  rw [judgements_judge, List.mem_append, List.mem_singleton] at h
  rcases h with h | rfl
  · cases hrefused : e.isRefusedCall with
    | true => simp [hrefused] at h
    | false =>
        rw [hrefused, if_neg Bool.false_ne_true, List.mem_flatMap] at h
        rcases h with ⟨⟨c, i⟩, hc, hj⟩
        exact Or.inr ⟨rfl, i, c, List.mem_zipIdx_iff_getElem?.mp hc, hj⟩
  · exact Or.inl ⟨rfl, rfl⟩

/-- The judgements on an expression are about parts of it, and none of them is final. -/
theorem judge_writes {e : Expr} (h : j ∈ (q.judge here e).judgements) :
    ∃ rel part, e.at? rel = some part ∧ j.path = here ++ rel ∧ j.final = false := by
  induction e using Expr.children_induct generalizing here with
  | step e ih =>
      rcases mem_judge h with ⟨hpath, hfinal⟩ | ⟨-, i, c, hc, hj⟩
      · exact ⟨[], e, by simp, by simpa using hpath, hfinal⟩
      · rcases ih c (List.mem_of_getElem? hc) hj with ⟨rel, part, hpart, hpath, hfinal⟩
        exact ⟨i :: rel, part, Expr.at?_cons.mpr ⟨c, hc, hpart⟩, by simpa using hpath, hfinal⟩

/-- The judgements on branches are those on each branch. -/
theorem judgements_clauseAll (index : Nat) (es : List Expr) :
    (clauseAll q here index es).judgements =
      (es.zipIdx index).flatMap fun c => (q.clause (here ++ [c.2]) c.1).judgements := by
  induction es generalizing index with
  | nil => rfl
  | cons e rest ih => rw [clauseAll, Ruling.join, ih, List.zipIdx_cons, List.flatMap_cons]

/-- The judgements on a combination of clauses are those on its branches, and a final one on
itself. -/
theorem judgements_of_combinator {e : Expr} (h : e.isCombinator = true) :
    (q.clause here e).judgements =
      (e.children.zipIdx.flatMap fun c => (q.clause (here ++ [c.2]) c.1).judgements) ++
        [⟨here, (q.clause here e).verdict, true⟩] := by
  cases e with
  | unary op operand span | binary op left right span =>
      have hlogical : op.isLogical = true := h
      simp [clause, hlogical, Ruling.combine, Ruling.join, Expr.children]
  | call function arguments qualifiers span =>
      have hjoins : (combinatorFunctions.contains function && qualifiers.isEmpty) = true := h
      rw [clause, if_pos hjoins, Ruling.combine, judgements_clauseAll, Expr.children]
  | _ => simp [Expr.isCombinator] at h

/-- A judgement on a combination of clauses is about the combination itself or about a part of a
branch. -/
theorem mem_clause {e : Expr} (hcombinator : e.isCombinator = true)
    (h : j ∈ (q.clause here e).judgements) :
    j.path = here ∨
      ∃ i c, e.children[i]? = some c ∧ j ∈ (q.clause (here ++ [i]) c).judgements := by
  rw [judgements_of_combinator hcombinator, List.mem_append, List.mem_singleton,
    List.mem_flatMap] at h
  rcases h with ⟨⟨c, i⟩, hc, hj⟩ | rfl
  · exact Or.inr ⟨i, c, List.mem_zipIdx_iff_getElem?.mp hc, hj⟩
  · exact Or.inl rfl

/-- The judgements on a clause are about parts of it, and only those on combinations are final. -/
theorem clause_writes {e : Expr} (h : j ∈ (q.clause here e).judgements) :
    ∃ rel part, e.at? rel = some part ∧ j.path = here ++ rel ∧
      (j.final = true → part.isCombinator = true) := by
  induction e using Expr.children_induct generalizing here with
  | step e ih =>
      cases hcombinator : e.isCombinator with
      | false =>
          rw [clause_of_leaf hcombinator] at h
          rcases judge_writes h with ⟨rel, part, hpart, hpath, hfinal⟩
          exact ⟨rel, part, hpart, hpath, by simp [hfinal]⟩
      | true =>
          rcases mem_clause hcombinator h with hpath | ⟨i, c, hc, hj⟩
          · exact ⟨[], e, by simp, by simpa using hpath, fun _ => hcombinator⟩
          · rcases ih c (List.mem_of_getElem? hc) hj with ⟨rel, part, hpart, hpath, hfinal⟩
            exact ⟨i :: rel, part, Expr.at?_cons.mpr ⟨c, hc, hpart⟩, by simpa using hpath, hfinal⟩

/-- A call is no field to sort by. -/
theorem sortExpression_of_call {e : Expr} (here : Path) (h : e.isCall = true) :
    (q.sortExpression here e).verdict.isDelegable = false := by
  cases e with
  | call => rfl
  | _ => simp [Expr.isCall] at h

/-- A call is no column. -/
theorem column_of_call {e : Expr} (use : ColumnUse) (here : Path) (h : e.isCall = true) :
    (q.column use here e).verdict.isDelegable = false := by
  cases e with
  | call => rfl
  | _ => simp [Expr.isCall] at h

end Query

/-! ## Judgements of a query -/

namespace CallSite

variable {site : CallSite} {q : Query} {capabilities : CapabilityTable} {bindings : Bindings}
  {judging : Judging}

/-- The judgements on the arguments of a query are about parts of the arguments behind the first.
The final ones are those on combinations of conditions, and those on whole arguments that have to be
fields or columns, where a call is refused. -/
theorem rulings_writes {j : Judgement} (h : j ∈ (site.rulings q).flatMap (·.judgements)) :
    ∃ i argument rel part, 1 ≤ i ∧ site.arguments[i]? = some argument ∧
      argument.at? rel = some part ∧ j.path = site.path ++ i :: rel ∧
      (j.final = true → part.isCombinator = true ∨
        rel = [] ∧ (part.isCall = true → j.verdict.isDelegable = false)) := by
  rcases List.mem_flatMap.mp h with ⟨ruling, hruling, hj⟩
  rcases mem_rulings.mp hruling with ⟨i, argument, role, hargument, hrole, rfl⟩
  have hi := one_le_of_role? hrole
  cases role with
  | condition =>
      rcases Query.clause_writes hj with ⟨rel, part, hpart, hpath, hfinal⟩
      exact ⟨i, argument, rel, part, hi, hargument, hpart, by simpa using hpath,
        fun h => Or.inl (hfinal h)⟩
  | field =>
      obtain rfl := List.mem_singleton.mp hj
      exact ⟨i, argument, [], argument, hi, hargument, by simp, rfl,
        fun _ => Or.inr ⟨rfl, Query.sortExpression_of_call (site.path ++ [i])⟩⟩
  | column use =>
      obtain rfl := List.mem_singleton.mp hj
      exact ⟨i, argument, [], argument, hi, hargument, by simp, rfl,
        fun _ => Or.inr ⟨rfl, Query.column_of_call use (site.path ++ [i])⟩⟩

/-- The verdict of a query on its own call: that of its arguments, unless the table it reads was
refused. -/
theorem get?_judge_self (hquery : site.query? capabilities bindings = some q) :
    (judge capabilities bindings judging site).verdicts.get? site.path =
      some ((site.innerVerdict q judging.verdicts).andThen
        (.all ((site.rulings q).map (·.verdict)))) := by
  simp only [judge, hquery, List.foldl_append, List.foldl_cons, List.foldl_nil]
  rw [Judgement.get?_apply, if_pos ⟨rfl, Or.inl rfl⟩]

/-- What holds of the verdict on a call holds after another query was judged, if it holds of every
refusal where the call is an argument behind the first. -/
theorem get?_judge_induct {P : Verdict → Prop} {e part : Expr} {path : Path}
    (hpart : e.at? path = some part) (hcall : part.isCall = true)
    (hcombinator : part.isCombinator = false)
    (hrefused : ∀ parent i, 1 ≤ i → path = parent ++ [i] → ∀ reason, P (.refused reason))
    (hsite : site ∈ e.querySites) (hpath : site.path ≠ path)
    (h : ∃ v, judging.verdicts.get? path = some v ∧ P v) :
    ∃ v, (judge capabilities bindings judging site).verdicts.get? path = some v ∧ P v := by
  unfold judge
  split
  · exact h
  refine Judgement.get?_foldl_induct (P := fun found => ∃ v, found = some v ∧ P v) h ?_
  rintro j hj hat _ ⟨v, rfl, -⟩ hreplaces
  have hjfinal : j.final = true := by simpa using hreplaces
  rcases List.mem_append.mp hj with hj | hj
  · rcases rulings_writes hj with ⟨i, argument, rel, part', hi, hargument, hpart', hpath', hfinal⟩
    have hinside : e.at? (site.path ++ i :: rel) = some part' := by
      rw [Expr.at?_append_of (Expr.mem_querySites_iff.mp hsite).1]
      exact Expr.at?_cons.mpr ⟨argument, hargument, hpart'⟩
    obtain rfl : part = part' := by
      rw [← hpath', hat, hpart] at hinside
      exact Option.some.inj hinside
    rcases hfinal hjfinal with hcombinator' | ⟨rfl, hrefuses⟩
    · simp [hcombinator] at hcombinator'
    · cases hverdict : j.verdict with
      | delegable => simp [hverdict, hcall] at hrefuses
      | refused reason => exact ⟨_, rfl, hrefused site.path i hi (hat ▸ hpath') reason⟩
  · obtain rfl := List.mem_singleton.mp hj
    exact absurd hat hpath

/-- What holds of the verdict on a call holds after other queries were judged, if it holds of every
refusal where the call is an argument behind the first. -/
theorem get?_foldl_judge_induct {P : Verdict → Prop} {e part : Expr} {path : Path}
    {sites : List CallSite} (hpart : e.at? path = some part) (hcall : part.isCall = true)
    (hcombinator : part.isCombinator = false)
    (hrefused : ∀ parent i, 1 ≤ i → path = parent ++ [i] → ∀ reason, P (.refused reason))
    (hsites : ∀ s ∈ sites, s ∈ e.querySites ∧ s.path ≠ path)
    (h : ∃ v, judging.verdicts.get? path = some v ∧ P v) :
    ∃ v, (sites.foldl (judge capabilities bindings) judging).verdicts.get? path = some v ∧
      P v := by
  induction sites generalizing judging with
  | nil => exact h
  | cons s rest ih =>
      rcases hsites s (List.mem_cons_self ..) with ⟨hs, hpath⟩
      exact ih (fun s hs => hsites s (List.mem_cons_of_mem _ hs))
        (get?_judge_induct hpart hcall hcombinator hrefused hs hpath h)

end CallSite

end FormulaLint
