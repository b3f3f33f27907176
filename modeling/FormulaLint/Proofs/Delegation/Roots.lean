import FormulaLint.Proofs.Delegation.NestedQueries
import Mathlib.Data.List.Induction

/-!
# The queries that a report lists

A report lists the judged parts that call a query function.  A query that is analysed judges its own
call, and so it is listed.  But it also judges the parts of its conditions and the arguments that it
takes for fields, and a call of a query function among them is listed too, even if it makes no query:
it may be qualified, have no arguments, or read a source without capabilities.  What is listed is
listed once, and nothing is listed behind a call that it stands inside.

Main results:

- Theorem {lit}`Judgement.keys_foldl`: the parts that judgements add to a report, in order.
- Theorem {lit}`CallSite.keys_judge`: the parts that a query adds to a report.
- Theorem {lit}`Verdicts.Lists.judge`: one more query keeps the list of judged parts exact.
- Theorem {lit}`delegation_roots`: the queries that a report lists.
-/

namespace FormulaLint

/-! ## The parts that judgements are about -/

namespace Judgement

/-- Judgements add the parts that had no verdict, each once, in the order in which the parts are first
judged. -/
theorem keys_foldl (verdicts : Verdicts) (js : List Judgement) :
    ∃ new, (js.foldl apply verdicts).keys = verdicts.keys ++ new ∧ new.Sublist (js.map (·.path)) ∧
      (∀ path ∈ new, path ∉ verdicts.keys) ∧ new.Nodup ∧
      ∀ j ∈ js, j.path ∈ verdicts.keys ++ new := by
  induction js generalizing verdicts with
  | nil => exact ⟨[], by simp⟩
  | cons j rest ih =>
      rcases ih (apply verdicts j) with ⟨new, hkeys, hsublist, hfresh, hnodup, hall⟩
      rw [keys_apply] at hkeys hfresh hall
      rw [List.foldl_cons, List.map_cons]
      by_cases hjudged : j.path ∈ verdicts.keys
      · simp only [if_pos hjudged] at hkeys hfresh hall
        refine ⟨new, hkeys, hsublist.cons _, hfresh, hnodup, List.forall_mem_cons.mpr ⟨?_, hall⟩⟩
        exact List.mem_append_left new hjudged
      · simp only [if_neg hjudged, List.mem_append, List.mem_singleton, not_or] at hkeys hfresh hall
        refine ⟨j.path :: new, by simpa using hkeys, hsublist.cons_cons _, ?_, ?_, ?_⟩
        · exact List.forall_mem_cons.mpr ⟨hjudged, fun path hpath => (hfresh path hpath).1⟩
        · exact List.nodup_cons.mpr ⟨fun hmem => (hfresh _ hmem).2 rfl, hnodup⟩
        · refine List.forall_mem_cons.mpr ⟨by simp, fun j' hj' => ?_⟩
          simpa [or_assoc] using hall j' hj'

end Judgement

namespace Query

variable {q : Query} {e : Expr} {rel : Path}

/-- Every part of an expression that is reached is judged. -/
theorem exists_judge_of_reaches (here : Path) (h : e.Reaches rel) :
    ∃ j ∈ (q.judge here e).judgements, j.path = here ++ rel := by
  induction rel generalizing e here with
  | nil =>
      rw [judgements_judge]
      exact ⟨_, List.mem_append_right _ (List.mem_singleton.mpr rfl), by simp [tentative]⟩
  | cons i rest ih =>
      rcases h with ⟨hrefused, c, hc, hreaches⟩
      rcases ih (here ++ [i]) hreaches with ⟨j, hj, hpath⟩
      rw [judgements_judge, hrefused, if_neg Bool.false_ne_true]
      refine ⟨j, List.mem_append_left _ (List.mem_flatMap.mpr ⟨(c, i), ?_, hj⟩), by simpa using hpath⟩
      exact List.mem_zipIdx_iff_getElem?.mpr hc

/-- Every part of a clause that is reached is judged. -/
theorem exists_clause_of_reaches (here : Path) (h : e.Reaches rel) :
    ∃ j ∈ (q.clause here e).judgements, j.path = here ++ rel := by
  induction e using Expr.children_induct generalizing here rel with
  | step e ih =>
      cases hcombinator : e.isCombinator with
      | false =>
          rw [clause_of_leaf hcombinator]
          exact exists_judge_of_reaches here h
      | true =>
          rw [judgements_of_combinator hcombinator]
          cases rel with
          | nil => exact ⟨_, List.mem_append_right _ (List.mem_singleton.mpr rfl), by simp⟩
          | cons i rest =>
              rcases h with ⟨-, c, hc, hreaches⟩
              rcases ih c (List.mem_of_getElem? hc) (here ++ [i]) hreaches with ⟨j, hj, hpath⟩
              refine ⟨j, List.mem_append_left _ (List.mem_flatMap.mpr ⟨(c, i), ?_, hj⟩),
                by simpa using hpath⟩
              exact List.mem_zipIdx_iff_getElem?.mpr hc

end Query

/-! ## The parts that a query judges -/

/-- Whether a query judges the part at a path of its formula: a part of an argument that it takes for
a condition, if the part is reached, or a whole argument that it takes for a field or a column. -/
def CallSite.Judges (site : CallSite) (path : Path) : Prop :=
  ∃ i argument role rel, site.arguments[i]? = some argument ∧ site.role? i = some role ∧
    path = site.path ++ i :: rel ∧ if role = .condition then argument.Reaches rel else rel = []

/-- Whether the part at a path calls a query function. -/
def Expr.CallsQuery (e : Expr) (path : Path) : Prop :=
  ∃ part, e.at? path = some part ∧ isQueryCall part = true

/-- Whether the part at a path is a query over a source that declares capabilities: a call of a query
function, without qualifiers, whose first argument is a table over the source. -/
def Expr.Queries (capabilities : CapabilityTable) (bindings : Bindings) (e : Expr) (path : Path) :
    Prop :=
  ∃ function first rest span source fields,
    e.at? path = some (.call function (first :: rest) [] span) ∧ function ∈ queryFunctions ∧
      tableSource bindings (path ++ [0]) first = some source ∧
      capabilities.forSource source = some fields

namespace CallSite

variable {capabilities : CapabilityTable} {bindings : Bindings} {e : Expr} {site : CallSite}
  {q : Query} {path : Path}

/-- The parts that the rulings of a query are about. -/
theorem exists_rulings_iff :
    (∃ j ∈ (site.rulings q).flatMap (·.judgements), j.path = path) ↔ site.Judges path := by
  simp only [List.mem_flatMap, mem_rulings]
  constructor
  · rintro ⟨j, ⟨_, ⟨i, argument, role, hargument, hrole, rfl⟩, hj⟩, rfl⟩
    cases role with
    | condition =>
        rcases Query.clause_reaches hj with ⟨rel, hreaches, hpath⟩
        exact ⟨i, argument, _, rel, hargument, hrole, by simpa using hpath, hreaches⟩
    | field | column use =>
        obtain rfl := List.mem_singleton.mp hj
        exact ⟨i, argument, _, [], hargument, hrole, rfl, rfl⟩
  · rintro ⟨i, argument, role, rel, hargument, hrole, rfl, htaken⟩
    suffices h : ∃ j ∈ (q.ruling role (site.path ++ [i]) argument).judgements,
        j.path = (site.path ++ [i]) ++ rel by
      rcases h with ⟨j, hj, hpath⟩
      exact ⟨j, ⟨_, ⟨i, argument, role, hargument, hrole, rfl⟩, hj⟩, by simpa using hpath⟩
    cases role with
    | condition => exact Query.exists_clause_of_reaches _ htaken
    | field | column use =>
        obtain rfl : rel = [] := htaken
        exact ⟨_, List.mem_singleton.mpr rfl, (List.append_nil _).symm⟩

/-- A part that a query judges is not the call itself. -/
theorem Judges.ne_append (h : site.Judges path) (rel : Path) : site.path ≠ path ++ rel := by
  rcases h with ⟨i, -, -, rel', -, -, rfl, -⟩
  simp

/-- A part that a query judges is not inside a call of a query function that is part of an argument of
the query. -/
theorem Judges.eq_nil {i : Nat} {rest rel : Path} (hsite : site ∈ e.querySites)
    (h : site.Judges (site.path ++ i :: (rest ++ rel)))
    (hcall : e.CallsQuery (site.path ++ i :: rest)) : rel = [] := by
  rcases hcall with ⟨part, hpart, hquery⟩
  rcases h with ⟨i', argument, role, rel', hargument, -, hpath, htaken⟩
  obtain ⟨rfl, rfl⟩ := List.cons.inj (List.append_cancel_left hpath)
  rw [Expr.at?_append_of (Expr.mem_querySites_iff.mp hsite).1] at hpart
  rcases Expr.at?_cons.mp hpart with ⟨c, hc, hpart⟩
  obtain rfl : c = argument := Option.some.inj (hc.symm.trans hargument)
  split at htaken
  · exact htaken.eq_nil hpart (Expr.isRefusedCall_of_isQueryCall hquery)
  · exact (List.append_eq_nil_iff.mp htaken).2

/-- Whether a call makes a query that passes a verdict on the part at a path: on its own call or on a
part that it judges. -/
def PassesOn (capabilities : CapabilityTable) (bindings : Bindings) (site : CallSite) (path : Path) :
    Prop :=
  (∃ q, site.query? capabilities bindings = some q) ∧ (path = site.path ∨ site.Judges path)

/-- What a query passes a verdict on is its call or inside it. -/
theorem PassesOn.exists_append (h : site.PassesOn capabilities bindings path) :
    ∃ rel, path = site.path ++ rel := by
  rcases h.2 with rfl | ⟨i, -, -, rel, -, -, hpath, -⟩
  · exact ⟨[], by simp⟩
  · exact ⟨i :: rel, hpath⟩

/-- A query adds the parts that it judges, each at most once; none of them is inside a call of a query
function that was added before it. -/
theorem keys_judge (capabilities : CapabilityTable) (bindings : Bindings)
    (hsite : site ∈ e.querySites) (judging : Judging) :
    ∃ new, (judge capabilities bindings judging site).verdicts.keys = judging.verdicts.keys ++ new ∧
      new.Nodup ∧ (∀ path ∈ new, path ∉ judging.verdicts.keys) ∧
      (∀ path ∈ new, site.PassesOn capabilities bindings path) ∧
      (∀ path, site.PassesOn capabilities bindings path → path ∈ judging.verdicts.keys ++ new) ∧
      new.Pairwise fun path later => e.CallsQuery path → ∀ rel, later = path ++ rel → rel = [] := by
  unfold judge
  cases hquery : site.query? capabilities bindings with
  | none => exact ⟨[], by simp [PassesOn, hquery]⟩
  | some q =>
      let own : Judgement := ⟨site.path, (site.innerVerdict q judging.verdicts).andThen
        (.all ((site.rulings q).map (·.verdict))), true⟩
      have hjudged : ∀ path, (∃ j ∈ (site.rulings q).flatMap (·.judgements) ++ [own],
          j.path = path) ↔ site.PassesOn capabilities bindings path := by
        intro path
        simp only [List.mem_append, List.mem_singleton, or_and_right, exists_or,
          exists_rulings_iff, exists_eq_left]
        simp [PassesOn, hquery, own, or_comm, eq_comm]
      rcases Judgement.keys_foldl judging.verdicts
        ((site.rulings q).flatMap (·.judgements) ++ [own]) with
        ⟨new, hkeys, hsublist, hfresh, hnodup, hall⟩
      refine ⟨new, hkeys, hnodup, hfresh, fun path hpath => ?_, fun path hpath => ?_,
        List.Pairwise.sublist hsublist ?_⟩
      · exact (hjudged path).mp (List.mem_map.mp (hsublist.subset hpath))
      · rcases (hjudged path).mpr hpath with ⟨j, hj, rfl⟩
        exact hall j hj
      -- the call itself comes last, and the parts in front of it are reached
      · rw [List.map_append, List.pairwise_append]
        have hrulings : ∀ path ∈ ((site.rulings q).flatMap (·.judgements)).map (·.path),
            site.Judges path := fun path hpath => exists_rulings_iff.mp (List.mem_map.mp hpath)
        refine ⟨List.pairwise_of_forall_mem_list fun path hpath later hlater hcall rel hrel => ?_,
          List.pairwise_singleton _ _, fun path hpath later hlater hcall rel hrel => ?_⟩
        · subst hrel
          have hlater := hrulings _ hlater
          rcases hrulings path hpath with ⟨i, -, -, rest, -, -, rfl, -⟩
          rw [List.append_assoc, List.cons_append] at hlater
          exact hlater.eq_nil hsite hcall
        · obtain rfl : later = site.path := List.mem_singleton.mp hlater
          exact absurd hrel ((hrulings path hpath).ne_append rel)

end CallSite

/-! ## The parts that a report lists -/

/-- Verdicts are on the parts that the given queries of an expression pass verdicts on, each once, and
nothing stands behind a call of a query function that it is inside. -/
structure Verdicts.Lists (capabilities : CapabilityTable) (bindings : Bindings) (e : Expr)
    (sites : List CallSite) (verdicts : Verdicts) : Prop where
  once : verdicts.keys.Nodup
  exact : ∀ path, path ∈ verdicts.keys ↔ ∃ site ∈ sites, site.PassesOn capabilities bindings path
  inward : verdicts.keys.Pairwise fun path later =>
    e.CallsQuery path → ∀ rel, later = path ++ rel → rel = []

variable {capabilities : CapabilityTable} {bindings : Bindings} {e : Expr} {site : CallSite}
  {sites : List CallSite} {judging : Judging}

/-- What a query passes a verdict on is not inside a call of a query function that was judged by a
query listed before it. -/
theorem CallSite.PassesOn.eq_nil {site' : CallSite} {path rel : Path} (hsite : site ∈ e.querySites)
    (hsite' : site' ∈ e.querySites) (hdepth : site.depth ≤ site'.depth)
    (hapart : site.path ≠ site'.path) (h : site.PassesOn capabilities bindings (path ++ rel))
    (hbefore : site'.PassesOn capabilities bindings path) (hcall : e.CallsQuery path) :
    rel = [] := by
  rcases hbefore.exists_append with ⟨rel', rfl⟩
  -- the query is not inside what was judged before, as it has fewer calls around it
  have houtside : site.isWithin (site'.path ++ rel') = false := by
    by_contra hwithin
    rcases isWithin_iff.mp (by simpa using hwithin) with ⟨rest, hrest⟩
    have hinside : site.isWithin site'.path = true :=
      isWithin_iff.mpr ⟨rel' ++ rest, by simpa using hrest⟩
    simp [not_isWithin_of_depth_le hsite hsite' hdepth hapart] at hinside
  rcases h.2 with hown | ⟨i, argument, role, rest, hargument, hrole, hpath, htaken⟩
  · simp [isWithin_iff.mpr ⟨rel, hown.symm⟩] at houtside
  · rcases path_of_not_isWithin houtside hpath with ⟨more, hmore, rfl⟩
    rw [hmore] at hcall
    exact CallSite.Judges.eq_nil hsite ⟨i, argument, role, _, hargument, hrole, rfl, htaken⟩ hcall

/-- One more query keeps the list of judged parts exact, when it has no more calls around it than the
queries before it. -/
theorem Verdicts.Lists.judge (hsite : site ∈ e.querySites)
    (hsites : ∀ s ∈ sites, s ∈ e.querySites ∧ site.depth ≤ s.depth ∧ site.path ≠ s.path)
    (h : judging.verdicts.Lists capabilities bindings e sites) :
    (CallSite.judge capabilities bindings judging site).verdicts.Lists capabilities bindings e
      (sites ++ [site]) := by
  rcases CallSite.keys_judge capabilities bindings hsite judging with
    ⟨new, hkeys, hnodup, hfresh, hpasses, hall, hinward⟩
  constructor
  · rw [hkeys, List.nodup_append']
    exact ⟨h.once, hnodup, fun path hpath hnew => hfresh path hnew hpath⟩
  · intro path
    simp only [List.mem_append, List.mem_singleton, or_and_right, exists_or, exists_eq_left,
      ← h.exact path]
    rw [hkeys, List.mem_append]
    refine ⟨Or.imp_right (hpasses path), ?_⟩
    rintro (hpath | hpath)
    · exact Or.inl hpath
    · exact List.mem_append.mp (hall path hpath)
  · rw [hkeys, List.pairwise_append]
    refine ⟨h.inward, hinward, fun path hpath later hlater hcall rel hrel => ?_⟩
    rcases (h.exact path).mp hpath with ⟨s, hs, hbefore⟩
    rcases hsites s hs with ⟨hmem, hdepth, hapart⟩
    exact (hrel ▸ hpasses later hlater).eq_nil hsite hmem hdepth hapart hbefore hcall

/-- The verdicts on a formula are on the parts that its queries pass verdicts on. -/
theorem delegation_lists (capabilities : CapabilityTable) (bindings : Bindings) (e : Expr) :
    (delegation capabilities bindings e).verdicts.Lists capabilities bindings e e.querySites := by
  have hrun : ∀ sites rest, e.querySites = sites ++ rest →
      (sites.foldl (CallSite.judge capabilities bindings) ⟨.empty, []⟩).verdicts.Lists capabilities
        bindings e sites := by
    intro sites
    induction sites using List.reverseRecOn with
    | nil =>
        intro _ _
        exact ⟨List.nodup_nil, by simp [OrderedMap.keys, OrderedMap.empty], List.Pairwise.nil⟩
    | append_singleton sites site ih =>
        intro rest hsplit
        rw [List.append_assoc] at hsplit
        have hdepth := e.pairwise_depth_querySites
        have hpath := e.pairwise_path_querySites
        rw [hsplit, List.pairwise_append] at hdepth hpath
        rw [List.foldl_append]
        refine (ih _ hsplit).judge ?_ fun s hs => ⟨?_, ?_, ?_⟩
        · rw [hsplit]
          simp
        · rw [hsplit]
          exact List.mem_append_left _ hs
        · exact hdepth.2.2 s hs site (by simp)
        · exact (hpath.2.2 s hs site (by simp)).symm
  exact hrun e.querySites [] (List.append_nil _).symm

/-- The calls that are analysed are the queries over sources that declare capabilities. -/
theorem Expr.queries_iff {path : Path} :
    e.Queries capabilities bindings path ↔ ∃ site ∈ e.querySites,
      (∃ q, site.query? capabilities bindings = some q) ∧ path = site.path := by
  constructor
  · rintro ⟨function, first, rest, span, source, fields, hat, hfunction, hsource, hfields⟩
    refine ⟨⟨path, e.callDepth path, function, first :: rest, [], span⟩,
      mem_querySites_iff.mpr ⟨hat, rfl, hfunction, rfl⟩, ⟨⟨source, fields, bindings⟩, ?_⟩, rfl⟩
    exact CallSite.query?_eq_some_iff.mpr ⟨first, rest, rfl, hsource, hfields, rfl⟩
  · rintro ⟨site, hsite, ⟨q, hquery⟩, rfl⟩
    rcases mem_querySites_iff.mp hsite with ⟨hat, -, hfunction, hplain⟩
    rcases CallSite.query?_eq_some_iff.mp hquery with ⟨first, rest, harguments, hsource, hfields, -⟩
    rw [CallSite.expr, harguments, hplain] at hat
    exact ⟨_, first, rest, _, q.source, q.fields, hat, hfunction, hsource, hfields⟩

/-- A report lists the judged parts that call a query function. -/
theorem DelegationReport.mem_roots {report : DelegationReport} {path : Path} :
    path ∈ report.roots [] e ↔ path ∈ report.verdicts.keys ∧ e.CallsQuery path := by
  simp only [roots, List.mem_filter, List.any_eq_true, Expr.CallsQuery, Prod.exists,
    Bool.and_eq_true, decide_eq_true_eq, Expr.mem_walkFrom, List.nil_append]
  refine and_congr_right fun _ => ⟨?_, ?_⟩
  · rintro ⟨_, part, ⟨_, rfl, hat⟩, rfl, hcall⟩
    exact ⟨part, hat, hcall⟩
  · rintro ⟨part, hat, hcall⟩
    exact ⟨path, part, ⟨path, rfl, hat⟩, rfl, hcall⟩

/-- The queries that a report lists, each once: the calls that query a source with capabilities, and
the calls of query functions that such a query judges among its arguments, whether they make a query
or not.  None of them is listed behind a call that it stands inside. -/
theorem delegation_roots (capabilities : CapabilityTable) (bindings : Bindings) (e : Expr) :
    let roots := (delegation capabilities bindings e).roots [] e
    roots.Nodup ∧
      (∀ path, path ∈ roots ↔ e.Queries capabilities bindings path ∨
        e.CallsQuery path ∧ ∃ outer ∈ e.querySites,
          (∃ q, outer.query? capabilities bindings = some q) ∧ outer.Judges path) ∧
      roots.Pairwise fun path later => ∀ rel, later = path ++ rel → rel = [] := by
  intro roots
  have hlists := delegation_lists capabilities bindings e
  refine ⟨hlists.once.filter _, fun path => ?_, ?_⟩
  · rw [DelegationReport.mem_roots, hlists.exact, Expr.queries_iff]
    constructor
    · rintro ⟨⟨site, hsite, hquery, rfl | hjudges⟩, hcall⟩
      · exact Or.inl ⟨site, hsite, hquery, rfl⟩
      · exact Or.inr ⟨hcall, site, hsite, hquery, hjudges⟩
    · rintro (⟨site, hsite, hquery, rfl⟩ | ⟨hcall, site, hsite, hquery, hjudges⟩)
      · rcases Expr.mem_querySites_iff.mp hsite with ⟨hat, -, hfunction, -⟩
        exact ⟨⟨site, hsite, hquery, Or.inl rfl⟩, _, hat, List.contains_iff_mem.mpr hfunction⟩
      · exact ⟨⟨site, hsite, hquery, Or.inr hjudges⟩, hcall⟩
  · refine (hlists.inward.filter _).imp_of_mem fun hpath _ hinward rel hrel => ?_
    exact hinward (DelegationReport.mem_roots.mp hpath).2 rel hrel

/-! ## A query that is only an operand -/

/-- Two data sources. -/
def customerSymbols : SymbolTable :=
  .build .empty ⟨[("Orders", ["Status"]), ("Customers", ["Name"])]⟩

/-- The query {lit}`Filter(Customers, Name = 1)`, one call deep. -/
def namedCustomers : CallSite :=
  ⟨[1], 1, "Filter",
    [.name (.plain "Customers") default [] default,
      .binary .equal (.name (.plain "Name") default [] default)
        (.literal (.number (.whole 1) "1") default) default], [], default⟩

/-- The query {lit}`Filter(Orders, Filter(Customers, Name = 1))`. -/
def ordersByCustomers : CallSite :=
  ⟨[], 0, "Filter", [.name (.plain "Orders") default [] default, namedCustomers.expr], [], default⟩

/-- The inner call is listed because the outer one judges it as its condition, although it queries a
source without capabilities and is not analysed itself. -/
theorem ordersByCustomers_lists_operand :
    let e := ordersByCustomers.expr
    let bindings := (resolve customerSymbols {} e).bindings
    [1] ∈ (delegation orderCapabilities bindings e).roots [] e ∧
      ¬ e.Queries orderCapabilities bindings [1] := by
  intro e bindings
  constructor
  · have houter : ordersByCustomers ∈ e.querySites :=
      Expr.mem_querySites_iff.mpr ⟨rfl, rfl, by decide, rfl⟩
    have hquery : ordersByCustomers.query? orderCapabilities bindings =
        some ⟨"Orders", orderFields, bindings⟩ := rfl
    have hjudges : ordersByCustomers.Judges [1] :=
      ⟨1, namedCustomers.expr, .condition, [], rfl, rfl, rfl, trivial⟩
    have hlists := delegation_lists orderCapabilities bindings e
    exact DelegationReport.mem_roots.mpr
      ⟨(hlists.exact [1]).mpr ⟨ordersByCustomers, houter, ⟨_, hquery⟩, Or.inr hjudges⟩,
        namedCustomers.expr, rfl, rfl⟩
  · rintro ⟨_, _, _, _, source, fields, hat, -, hsource, hfields⟩
    obtain ⟨rfl, ⟨rfl, rfl⟩, -⟩ := by simpa using hat
    obtain rfl : "Customers" = source := Option.some.inj hsource
    cases hfields

end FormulaLint
