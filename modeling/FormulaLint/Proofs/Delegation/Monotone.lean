import FormulaLint.Proofs.Delegation.Warnings
import Mathlib.Data.List.Forall2

/-!
# Sources that can do more

When every source can do at least as much with each of its fields, the same parts of a formula get a
verdict, what was delegable stays delegable, and nothing is warned about that was not warned about
before.  Judging runs over the same parts in both cases, since no verdict decides what is looked at
next; so two runs go in step, with one relation between verdicts, judgements and reports.

Main results:

- Theorem {lit}`Query.judge_atMost`: the judgements on an expression, by what the fields can do.
- Theorem {lit}`CallSite.judge_atMost`: one query in two runs.
- Theorem {lit}`delegation_mono`: verdicts and warnings when the sources can do more.
-/

namespace FormulaLint

/-! ## What one source can do and another one too -/

/-- Whether everything that a capability admits is admitted by another one. -/
structure Capability.AtMost (c c' : Capability) : Prop where
  filterable : c.filterable = true → c'.filterable = true
  sortable : c.sortable = true → c'.sortable = true
  selectable : c.selectable = true → c'.selectable = true
  functions : c.functions ⊆ c'.functions

/-- Whether every field that a source describes is described by another one, as able to do the
same. -/
def FieldCapabilities.AtMost (fields fields' : FieldCapabilities) : Prop :=
  ∀ field c, fields.get? field = some c → ∃ c', fields'.get? field = some c' ∧ c.AtMost c'

/-- Whether two tables have the same sources, and those of the second one can do whatever those of
the first one can. -/
structure CapabilityTable.AtMost (table table' : CapabilityTable) : Prop where
  sources : ∀ source, (table.forSource source).isSome = (table'.forSource source).isSome
  fields : ∀ source field c, table.capability (some source) field = some c →
    ∃ c', table'.capability (some source) field = some c' ∧ c.AtMost c'

/-- Whether two queries differ at most in their sources, of which the second one can do whatever the
first one can. -/
structure Query.AtMost (q q' : Query) : Prop where
  source : q.source = q'.source
  bindings : q.bindings = q'.bindings
  fields : q.fields.AtMost q'.fields

/-- Whether a verdict is favourable when another one is. -/
def Verdict.AtMost (v v' : Verdict) : Prop :=
  v.isDelegable = true → v'.isDelegable = true

/-- Whether two judgements differ at most in their verdicts, of which the second one is favourable
when the first one is. -/
structure Judgement.AtMost (j j' : Judgement) : Prop where
  path : j.path = j'.path
  final : j.final = j'.final
  verdict : j.verdict.AtMost j'.verdict

/-- Whether the same parts have verdicts, and each part that is delegable in one map of verdicts is
delegable in another one. -/
structure Verdicts.AtMost (verdicts verdicts' : Verdicts) : Prop where
  keys : verdicts.keys = verdicts'.keys
  delegable : ∀ path, verdicts.get? path = some .delegable → verdicts'.get? path = some .delegable

/-- An operator or function that a field supports stays supported. -/
theorem Capability.AtMost.supports {c c' : Capability} (h : c.AtMost c') {tag : String}
    (hsupports : c.supports tag = true) : c'.supports tag = true := by
  rw [Capability.supports, Bool.and_eq_true, List.contains_iff_mem] at hsupports ⊢
  exact ⟨h.filterable hsupports.1, h.functions hsupports.2⟩

/-- A use of a column that is admitted stays admitted. -/
theorem Capability.AtMost.admits {c c' : Capability} (h : c.AtMost c') {use : ColumnUse}
    (hadmits : Query.admits c use = true) : Query.admits c' use = true := by
  cases use with
  | sortable => exact h.sortable hadmits
  | selectable => exact h.selectable hadmits

/-! ## One query with two sources -/

namespace Query

variable {q q' : Query} {here : Path} {e : Expr}

/-- The same expressions read fields of the row. -/
theorem AtMost.readsField_iff (h : q.AtMost q') {field : String} :
    q.ReadsField here e field ↔ q'.ReadsField here e field := by
  rw [ReadsField, ReadsField, h.source, h.bindings]

/-- What an operand supports stays supported. -/
theorem AtMost.supports (h : q.AtMost q') {tag : String} (hsupports : q.Supports here e tag) :
    q'.Supports here e tag := by
  intro field hreads
  rcases hsupports field (h.readsField_iff.mpr hreads) with ⟨c, hc, htag⟩
  rcases h.fields field c hc with ⟨c', hc', hmore⟩
  exact ⟨c', hc', hmore.supports htag⟩

/-- What the policy permits stays permitted. -/
theorem AtMost.permits (h : q.AtMost q') (hpermits : q.Permits here e) : q'.Permits here e := by
  cases e with
  | literal | member | record | table => trivial
  | chain | hole => exact hpermits
  | name identifier identifierSpan chain span =>
      rcases hpermits with ⟨hbound, hfields⟩
      refine ⟨h.bindings ▸ hbound, fun field hreads => ?_⟩
      rcases hfields field (h.readsField_iff.mpr hreads) with ⟨c, hc, hfilterable⟩
      rcases h.fields field c hc with ⟨c', hc', hmore⟩
      exact ⟨c', hc', hmore.filterable hfilterable⟩
  | call function arguments qualifiers span =>
      rcases hpermits with ⟨hplain, hfunction, harguments⟩
      exact ⟨hplain, hfunction, fun hjoins i argument hargument =>
        h.supports (harguments hjoins i argument hargument)⟩
  | unary op operand span => exact fun tag htag => h.supports (hpermits tag htag)
  | binary op left right span =>
      intro hlogical
      rcases hpermits hlogical with ⟨tag, htag, hleft, hright⟩
      exact ⟨tag, htag, h.supports hleft, h.supports hright⟩

/-- An expression that is delegable stays delegable. -/
theorem AtMost.judge_verdict (h : q.AtMost q') :
    (q.judge here e).verdict.AtMost (q'.judge here e).verdict := by
  intro hverdict
  rw [judge_iff_walk] at hverdict ⊢
  exact fun part hpart => h.permits (hverdict part hpart)

/-- A unit that is delegable stays delegable. -/
theorem AtMost.unitVerdict (h : q.AtMost q') (u : QueryUnit) :
    (q.unitVerdict u).AtMost (q'.unitVerdict u) := by
  rcases u with ⟨path, part, role⟩
  cases role with
  | condition => exact h.judge_verdict
  | field =>
      intro hverdict
      rcases sortExpression_iff.mp hverdict with ⟨field, hreads, c, hc, hsortable⟩
      rcases h.fields field c hc with ⟨c', hc', hmore⟩
      exact sortExpression_iff.mpr
        ⟨field, h.readsField_iff.mp hreads, c', hc', hmore.sortable hsortable⟩
  | column use =>
      intro hverdict
      rcases column_iff.mp hverdict with ⟨name, span, htext, c, hc, hadmits⟩
      rcases h.fields name c hc with ⟨c', hc', hmore⟩
      exact column_iff.mpr ⟨name, span, htext, c', hc', hmore.admits hadmits⟩

/-- An argument that is delegable stays delegable. -/
theorem AtMost.ruling_verdict (h : q.AtMost q') (role : ArgumentRole) :
    (q.ruling role here e).verdict.AtMost (q'.ruling role here e).verdict := by
  intro hverdict
  rw [ruling_iff_units] at hverdict ⊢
  exact fun u hu => h.unitVerdict u (hverdict u hu)

end Query

/-- Lists that are put together from related pieces are related. -/
theorem forall₂_flatMap {α β γ : Type} {R : β → γ → Prop} {l : List α} {f : α → List β}
    {g : α → List γ} (h : ∀ a ∈ l, List.Forall₂ R (f a) (g a)) :
    List.Forall₂ R (l.flatMap f) (l.flatMap g) := by
  induction l with
  | nil => exact .nil
  | cons a l ih =>
      rw [List.flatMap_cons, List.flatMap_cons]
      exact List.rel_append (h a (List.mem_cons_self ..))
        (ih fun b hb => h b (List.mem_cons_of_mem a hb))

namespace Query

variable {q q' : Query} {here : Path} {e : Expr}

/-- The judgements on an expression go in step. -/
theorem judge_atMost (h : q.AtMost q') :
    List.Forall₂ Judgement.AtMost (q.judge here e).judgements (q'.judge here e).judgements := by
  induction e using Expr.children_induct generalizing here with
  | step e ih =>
      rw [judgements_judge, judgements_judge]
      refine List.rel_append ?_ (.cons ⟨rfl, rfl, h.judge_verdict⟩ .nil)
      cases e.isRefusedCall with
      | true => exact .nil
      | false => exact forall₂_flatMap fun c hc => ih c.1 (List.fst_mem_of_mem_zipIdx hc)

/-- The judgements on a clause go in step. -/
theorem clause_atMost (h : q.AtMost q') :
    List.Forall₂ Judgement.AtMost (q.clause here e).judgements (q'.clause here e).judgements := by
  induction e using Expr.children_induct generalizing here with
  | step e ih =>
      cases hcombinator : e.isCombinator with
      | false =>
          rw [clause_of_leaf hcombinator, clause_of_leaf hcombinator]
          exact judge_atMost h
      | true =>
          rw [judgements_of_combinator hcombinator, judgements_of_combinator hcombinator]
          have hverdict : (q.clause here e).verdict.AtMost (q'.clause here e).verdict :=
            h.ruling_verdict .condition
          exact List.rel_append
            (forall₂_flatMap fun c hc => ih c.1 (List.fst_mem_of_mem_zipIdx hc))
            (.cons ⟨rfl, rfl, hverdict⟩ .nil)

/-- The judgements on an argument go in step. -/
theorem ruling_atMost (h : q.AtMost q') (role : ArgumentRole) :
    List.Forall₂ Judgement.AtMost (q.ruling role here e).judgements
      (q'.ruling role here e).judgements := by
  have hverdict : (q.ruling role here e).verdict.AtMost (q'.ruling role here e).verdict :=
    h.ruling_verdict role
  cases role with
  | condition => exact clause_atMost h
  | field | column use => exact .cons ⟨rfl, rfl, hverdict⟩ .nil

end Query

/-! ## Two runs in step -/

namespace Verdicts.AtMost

variable {verdicts verdicts' : Verdicts}

/-- A judgement is taken up in step. -/
theorem apply (h : verdicts.AtMost verdicts') {j j' : Judgement} (hj : j.AtMost j') :
    (Judgement.apply verdicts j).AtMost (Judgement.apply verdicts' j') := by
  refine ⟨by rw [Judgement.keys_apply, Judgement.keys_apply, h.keys, hj.path], fun path => ?_⟩
  simp only [Judgement.get?_apply, OrderedMap.get?_eq_none_iff, h.keys, hj.path, hj.final]
  split
  · intro hget
    have hfavourable : j.verdict.isDelegable = true := by rw [Option.some.inj hget]; rfl
    cases hverdict : j'.verdict with
    | delegable => rfl
    | refused reason => simpa [hverdict] using hj.verdict hfavourable
  · exact h.delegable path

/-- Judgements are taken up in step. -/
theorem foldl (h : verdicts.AtMost verdicts') {js js' : List Judgement}
    (hjs : List.Forall₂ Judgement.AtMost js js') :
    (js.foldl Judgement.apply verdicts).AtMost (js'.foldl Judgement.apply verdicts') := by
  have hstep : Relator.LiftFun Verdicts.AtMost
      (Relator.LiftFun Judgement.AtMost Verdicts.AtMost) Judgement.apply Judgement.apply :=
    fun _ _ h _ _ hj => apply h hj
  exact List.rel_foldl hstep h hjs

/-- What is refused with more capabilities is refused with less. -/
theorem refuses (h : verdicts.AtMost verdicts') {path : Path} (hrefuses : verdicts'.Refuses path) :
    verdicts.Refuses path := by
  rcases hrefuses with ⟨reason, hget'⟩
  cases hget : verdicts.get? path with
  | none =>
      rw [OrderedMap.get?_eq_none_iff, h.keys, ← OrderedMap.get?_eq_none_iff, hget'] at hget
      simp at hget
  | some v =>
      cases v with
      | delegable => simp [h.delegable path hget] at hget'
      | refused reason' => exact ⟨reason', hget⟩

end Verdicts.AtMost

namespace CallSite

variable {table table' : CapabilityTable} {bindings : Bindings} {site : CallSite} {q q' : Query}

/-- A call makes a query in both runs or in none. -/
theorem query?_atMost (h : table.AtMost table') (bindings : Bindings) (site : CallSite) :
    (site.query? table bindings = none ∧ site.query? table' bindings = none) ∨
      ∃ q q', site.query? table bindings = some q ∧ site.query? table' bindings = some q' ∧
        q.AtMost q' := by
  unfold query?
  cases site.arguments.head? with
  | none => exact Or.inl ⟨rfl, rfl⟩
  | some first =>
      cases hsource : tableSource bindings (site.path ++ [0]) first with
      | none => exact Or.inl (by simp [hsource])
      | some source =>
          have hsame := h.sources source
          cases hfields : table.forSource source with
          | none =>
              have hfields' : table'.forSource source = none := by simpa [hfields] using hsame.symm
              exact Or.inl (by simp [hsource, hfields, hfields'])
          | some fields =>
              rw [hfields, Option.isSome_some, eq_comm, Option.isSome_iff_exists] at hsame
              rcases hsame with ⟨fields', hfields'⟩
              have hmore : FieldCapabilities.AtMost fields fields' := fun field c hc => by
                have hfield := h.fields source field c
                simp only [CapabilityTable.capability, hfields, hfields', Option.bind_some] at hfield
                exact hfield hc
              exact Or.inr ⟨⟨source, fields, bindings⟩, ⟨source, fields', bindings⟩,
                by simp [hsource, hfields], by simp [hsource, hfields'], rfl, rfl, hmore⟩

/-- The verdict of a query on its own call is passed in step. -/
theorem verdict_atMost (h : q.AtMost q') {verdicts verdicts' : Verdicts}
    (hverdicts : verdicts.AtMost verdicts') :
    ((site.innerVerdict q verdicts).andThen (.all ((site.rulings q).map (·.verdict)))).AtMost
      ((site.innerVerdict q' verdicts').andThen
        (.all ((site.rulings q').map (·.verdict)))) := by
  intro hverdict
  rw [isDelegable_verdict] at hverdict ⊢
  rcases hverdict with ⟨hinner, hunits⟩
  exact ⟨fun hrefuses => hinner (hverdicts.refuses hrefuses),
    fun u hu => h.unitVerdict u (hunits u hu)⟩

/-- The judgements on the arguments of a query go in step. -/
theorem rulings_atMost (h : q.AtMost q') :
    List.Forall₂ Judgement.AtMost ((site.rulings q).flatMap (·.judgements))
      ((site.rulings q').flatMap (·.judgements)) := by
  rw [flatMap_rulings, flatMap_rulings]
  refine forall₂_flatMap fun c _ => ?_
  cases site.role? c.2 with
  | none => exact .nil
  | some role => exact Query.ruling_atMost h role

/-- A query is judged in step. -/
theorem judge_atMost (h : table.AtMost table') {judging judging' : Judging}
    (hverdicts : judging.verdicts.AtMost judging'.verdicts) :
    (judge table bindings judging site).verdicts.AtMost
      (judge table' bindings judging' site).verdicts := by
  unfold judge
  rcases query?_atMost h bindings site
    with ⟨hquery, hquery'⟩ | ⟨q, q', hquery, hquery', hmore⟩
  · rw [hquery, hquery']
    exact hverdicts
  · rw [hquery, hquery']
    exact hverdicts.foldl (List.rel_append (rulings_atMost hmore)
      (.cons ⟨rfl, rfl, verdict_atMost hmore hverdicts⟩ .nil))

end CallSite

variable {table table' : CapabilityTable}

/-- The verdicts on a formula are passed in step. -/
theorem delegation_atMost (h : table.AtMost table') (bindings : Bindings) (e : Expr) :
    (delegation table bindings e).verdicts.AtMost (delegation table' bindings e).verdicts := by
  have hrun : ∀ (sites : List CallSite) {judging judging' : Judging},
      judging.verdicts.AtMost judging'.verdicts →
      (sites.foldl (CallSite.judge table bindings) judging).verdicts.AtMost
        (sites.foldl (CallSite.judge table' bindings) judging').verdicts := by
    intro sites
    induction sites with
    | nil => exact id
    | cons site rest ih => exact fun hverdicts => ih (CallSite.judge_atMost h hverdicts)
  exact hrun e.querySites ⟨rfl, fun _ => id⟩

/-- A unit that is refused with more capabilities is refused with less. -/
theorem exists_refusedUnit_of_atMost (h : table.AtMost table') {bindings : Bindings} {e : Expr}
    {r : RefusedUnit} (hr : r ∈ e.refusedUnits table' bindings) :
    ∃ reason, ⟨r.site, r.unit, reason⟩ ∈ e.refusedUnits table bindings := by
  rcases Expr.mem_refusedUnits.mp hr with ⟨hsite, hunit, q', hquery', hverdict'⟩
  rcases CallSite.query?_atMost h bindings r.site
    with ⟨-, hnone⟩ | ⟨q, q'', hquery, hsome, hmore⟩
  · simp [hnone] at hquery'
  · obtain rfl := Option.some.inj (hquery'.symm.trans hsome)
    cases hverdict : q.unitVerdict r.unit with
    | delegable =>
        have hfavourable := hmore.unitVerdict r.unit
        simp [Verdict.AtMost, hverdict, hverdict'] at hfavourable
    | refused reason =>
        exact ⟨reason, Expr.mem_refusedUnits.mpr ⟨hsite, hunit, q, hquery, hverdict⟩⟩

/-- When the sources can do more, the same parts of a formula get a verdict, every part that was
delegable stays so, and every place of a warning was one before. -/
theorem delegation_mono (h : table.AtMost table') (bindings : Bindings) (e : Expr) :
    (delegation table bindings e).verdicts.keys = (delegation table' bindings e).verdicts.keys ∧
    (∀ path, (delegation table bindings e).verdicts.get? path = some .delegable →
      (delegation table' bindings e).verdicts.get? path = some .delegable) ∧
    ∀ d' ∈ (delegation table' bindings e).diagnostics,
      ∃ d ∈ (delegation table bindings e).diagnostics, d.span = d'.span := by
  refine ⟨(delegation_atMost h bindings e).keys, (delegation_atMost h bindings e).delegable, ?_⟩
  intro d' hd'
  rw [(diagnostics_perm_refusedUnits table' bindings e).mem_iff, List.mem_map] at hd'
  rcases hd' with ⟨r, hr, rfl⟩
  rcases exists_refusedUnit_of_atMost h hr with ⟨reason, hrefused⟩
  exact ⟨_, (diagnostics_perm_refusedUnits table bindings e).mem_iff.mpr
    (List.mem_map_of_mem hrefused), rfl⟩

/-! ## A source that learns one more comparison -/

/-- The source of orders, when it can also find the larger values of the field. -/
def richerOrderCapabilities : CapabilityTable :=
  ⟨⟨[("Orders", ⟨[("Status", ⟨true, true, true, ["gt", "eq"]⟩),
    ("Notes", ⟨true, true, true, []⟩)]⟩)]⟩⟩

/-- The source can do more than before. -/
theorem orderCapabilities_atMost : orderCapabilities.AtMost richerOrderCapabilities := by
  constructor
  · intro source
    by_cases h : "Orders" = source <;>
      simp [CapabilityTable.forSource, orderCapabilities, richerOrderCapabilities, OrderedMap.get?, h]
  · intro source field c hc
    by_cases h : "Orders" = source
    · by_cases hstatus : "Status" = field
      · subst h hstatus
        obtain rfl : (⟨true, true, true, ["eq"]⟩ : Capability) = c := Option.some.inj hc
        exact ⟨_, rfl, id, id, id, by decide⟩
      · by_cases hnotes : "Notes" = field
        · subst h hnotes
          obtain rfl : (⟨false, true, true, []⟩ : Capability) = c := Option.some.inj hc
          exact ⟨_, rfl, fun _ => rfl, id, id, by decide⟩
        · simp [CapabilityTable.capability, CapabilityTable.forSource, orderCapabilities,
            orderFields, OrderedMap.get?, h, hstatus, hnotes] at hc
    · simp [CapabilityTable.capability, CapabilityTable.forSource, orderCapabilities,
        OrderedMap.get?, h] at hc

/-- Of three conditions, the one that could run at the source still can, and what is warned about
stands where a warning was before. -/
theorem filteredByMany_mono :
    orderCapabilities.AtMost richerOrderCapabilities ∧
    (delegation richerOrderCapabilities (orderBindings filteredByMany.expr)
      filteredByMany.expr).verdicts.get? [1, 0] = some .delegable ∧
    ∃ d ∈ (delegation orderCapabilities (orderBindings filteredByMany.expr)
      filteredByMany.expr).diagnostics, d.span = (statusWarning "<").span := by
  rcases delegation_mono orderCapabilities_atMost (orderBindings filteredByMany.expr)
    filteredByMany.expr with ⟨-, hdelegable, hwarned⟩
  exact ⟨orderCapabilities_atMost, hdelegable [1, 0] (by decide +kernel),
    hwarned (statusWarning "<") (by decide +kernel)⟩

end FormulaLint
