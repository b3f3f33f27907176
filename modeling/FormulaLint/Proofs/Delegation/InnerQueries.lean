import FormulaLint.Proofs.Delegation.Judgements
import FormulaLint.Proofs.Delegation.RowFields

/-!
# Queries that read from queries

A query may read its rows from another query.  Since the inner one is judged first and keeps its
verdict, a refusal is passed on to the query that reads directly from it, and so along any series of
queries.  A function that keeps rows without being a query itself breaks the series: its calls get no
verdict, so that nothing is passed on through it, although the source is seen through it.

Main results:

- Theorem {lit}`CallSite.exists_query?`: what a query reads from makes a query.
- Theorem {lit}`refuses_of_direct`: a refusal is passed on to the query around it.
- Theorem {lit}`refuses_of_readsFrom`: a refusal is passed on along a series of queries.
- Theorem {lit}`verdict_over_table`: nothing is passed on through other functions.
-/

namespace FormulaLint

/-- Functions that query a source and keep its rows. -/
def rowQueryFunctions : List String :=
  rowPreservingFunctions.filter fun function => queryFunctions.contains function

/-- The tables that a table has its rows from, seen through calls of the given functions: the path to
the inner table, and the inner table. -/
inductive Expr.RowsFrom (through : List String) : Expr → Path → Expr → Prop
  | here (table : Expr) : RowsFrom through table [] table
  | first {function : String} {first inner : Expr} {rest : List Expr} {span : Span} {rel : Path}
      (hfunction : function ∈ through) (hrows : RowsFrom through first rel inner) :
      RowsFrom through (.call function (first :: rest) [] span) (0 :: rel) inner

/-- Whether a call reads its table from an inner one, seen through calls of the given functions. -/
def CallSite.ReadsFrom (through : List String) (outer inner : CallSite) : Prop :=
  ∃ first rest rel, outer.arguments = first :: rest ∧ first.RowsFrom through rel inner.expr ∧
    inner.path = outer.path ++ 0 :: rel

/-- Whether the part at a path was refused. -/
def Verdicts.Refuses (verdicts : Verdicts) (path : Path) : Prop :=
  ∃ reason, verdicts.get? path = some (.refused reason)

variable {capabilities : CapabilityTable} {bindings : Bindings} {e : Expr} {outer inner : CallSite}
  {q q' : Query}

/-- The path of a first argument is not that of a later one. -/
theorem first_ne_later {p p' : Path} {i : Nat} (hi : 1 ≤ i) : p ++ [0] ≠ p' ++ [i] := by
  intro hpath
  have hlast : [0] = [i] := (List.append_inj' hpath rfl).2
  simp at hlast
  omega

/-- A call has a source when it keeps the rows of its first argument, and then it is the source of
that argument. -/
theorem tableSource_call {function source : String} {arguments : List Expr}
    {qualifiers : List String} {span : Span} {here : Path}
    (h : tableSource bindings here (.call function arguments qualifiers span) = some source) :
    ∃ first rest, arguments = first :: rest ∧ qualifiers = [] ∧
      function ∈ rowPreservingFunctions ∧ tableSource bindings (here ++ [0]) first = some source := by
  cases arguments with
  | nil => simp [tableSource] at h
  | cons first rest =>
      cases qualifiers with
      | cons qualifier others => simp [tableSource] at h
      | nil =>
          rw [tableSource] at h
          split at h
          · rename_i hrows
            exact ⟨first, rest, rfl, rfl, List.contains_iff_mem.mp hrows, h⟩
          · simp at h

/-- The table that a query reads is its first argument. -/
theorem CallSite.at?_first {table : Expr} {rest : List Expr} (houter : outer ∈ e.querySites)
    (harguments : outer.arguments = table :: rest) : e.at? (outer.path ++ [0]) = some table := by
  rw [Expr.at?_append_of (Expr.mem_querySites_iff.mp houter).1]
  refine Expr.at?_cons.mpr ⟨table, ?_, Expr.at?_nil table⟩
  simp [expr, Expr.children, harguments]

/-- A call makes a query when a query has its rows from it. -/
theorem CallSite.exists_query? {table : Expr} {rest : List Expr}
    (hquery : outer.query? capabilities bindings = some q)
    (harguments : outer.arguments = table :: rest) (hpath : inner.path = outer.path ++ [0])
    (hexpr : inner.expr = table) : ∃ q', inner.query? capabilities bindings = some q' := by
  rcases query?_eq_some_iff.mp hquery with ⟨_, _, harguments', hsource, hfields, -⟩
  obtain ⟨rfl, rfl⟩ := List.cons.inj (harguments.symm.trans harguments')
  rw [← hpath, ← hexpr] at hsource
  rcases tableSource_call hsource with ⟨first, rest, hfirst, -, -, hsource⟩
  exact ⟨⟨q.source, q.fields, bindings⟩,
    query?_eq_some_iff.mpr ⟨first, rest, hfirst, hsource, hfields, rfl⟩⟩

/-! ## Passing on a refusal -/

namespace CallSite

variable {judging : Judging} {sites : List CallSite}

/-- A call that queries a source is no combination of conditions. -/
theorem not_isCombinator (h : outer ∈ e.querySites) : outer.expr.isCombinator = false := by
  rcases Expr.mem_querySites_iff.mp h with ⟨-, -, hfunction, -⟩
  have hdisjoint : ∀ function ∈ queryFunctions, function ∉ combinatorFunctions := by decide
  simp [expr, Expr.isCombinator, hdisjoint _ hfunction]

/-- The verdict on a query stays as it is, unless the query is an argument behind the first. -/
theorem foldl_judge_keeps {v : Verdict} (hinner : inner ∈ e.querySites)
    (hfirst : ∀ parent i, 1 ≤ i → inner.path ≠ parent ++ [i])
    (hsites : ∀ s ∈ sites, s ∈ e.querySites ∧ s.path ≠ inner.path)
    (h : judging.verdicts.get? inner.path = some v) :
    (sites.foldl (judge capabilities bindings) judging).verdicts.get? inner.path = some v := by
  rcases get?_foldl_judge_induct (Expr.mem_querySites_iff.mp hinner).1 rfl
    (not_isCombinator hinner) (fun parent i hi hpath => absurd hpath (hfirst parent i hi)) hsites
    ⟨v, h, rfl⟩ with ⟨_, hget, rfl⟩
  exact hget

/-- A query that was refused stays refused. -/
theorem foldl_judge_refuses (houter : outer ∈ e.querySites)
    (hsites : ∀ s ∈ sites, s ∈ e.querySites ∧ s.path ≠ outer.path)
    (h : judging.verdicts.Refuses outer.path) :
    (sites.foldl (judge capabilities bindings) judging).verdicts.Refuses outer.path := by
  rcases h with ⟨reason, hget⟩
  rcases get?_foldl_judge_induct (P := fun v => ∃ reason, v = .refused reason)
    (Expr.mem_querySites_iff.mp houter).1 rfl (not_isCombinator houter)
    (fun _ _ _ _ reason => ⟨reason, rfl⟩) hsites ⟨_, hget, reason, rfl⟩ with
    ⟨_, hget', reason', rfl⟩
  exact ⟨reason', hget'⟩

/-- A query is refused when the table it reads was refused before. -/
theorem judge_refuses (hquery : outer.query? capabilities bindings = some q)
    (h : judging.verdicts.Refuses (outer.path ++ [0])) :
    (judge capabilities bindings judging outer).verdicts.Refuses outer.path := by
  rcases h with ⟨reason, hget⟩
  refine ⟨.innerQuery q.source, ?_⟩
  rw [get?_judge_self hquery, innerVerdict, hget]
  rfl

end CallSite

/-- The verdicts on a formula come from judging its queries in two stages. -/
theorem delegation_verdicts {before after : List CallSite} (h : e.querySites = before ++ after) :
    (delegation capabilities bindings e).verdicts =
      (after.foldl (CallSite.judge capabilities bindings)
        (before.foldl (CallSite.judge capabilities bindings) ⟨.empty, []⟩)).verdicts := by
  rw [← List.foldl_append, ← h]
  rfl

/-- A query that is no argument behind the first has its verdict as soon as it is judged. -/
theorem get?_delegation_of_judged {before between after : List CallSite}
    (hinner : inner ∈ e.querySites) (hquery : inner.query? capabilities bindings = some q)
    (hfirst : ∀ parent i, 1 ≤ i → inner.path ≠ parent ++ [i])
    (hsplit : e.querySites = before ++ inner :: (between ++ after))
    (hothers : ∀ s ∈ between ++ after, s.path ≠ inner.path) :
    (delegation capabilities bindings e).verdicts.get? inner.path =
      ((before ++ inner :: between).foldl (CallSite.judge capabilities bindings)
        ⟨.empty, []⟩).verdicts.get? inner.path := by
  have hsites : ∀ s ∈ between ++ after, s ∈ e.querySites ∧ s.path ≠ inner.path := by
    intro s hs
    rw [hsplit]
    exact ⟨List.mem_append_right _ (List.mem_cons_of_mem _ hs), hothers s hs⟩
  rw [delegation_verdicts hsplit, List.foldl_append, List.foldl_cons, List.foldl_cons,
    CallSite.foldl_judge_keeps hinner hfirst hsites (CallSite.get?_judge_self hquery),
    CallSite.foldl_judge_keeps hinner hfirst (fun s hs => hsites s (List.mem_append_left _ hs))
      (CallSite.get?_judge_self hquery)]

/-- A refusal is passed on to the query that reads directly from the refused one. -/
theorem refuses_of_direct (houter : outer ∈ e.querySites) (hinner : inner ∈ e.querySites)
    (hquery : outer.query? capabilities bindings = some q)
    (hquery' : inner.query? capabilities bindings = some q')
    (hpath : inner.path = outer.path ++ [0])
    (h : (delegation capabilities bindings e).verdicts.Refuses inner.path) :
    (delegation capabilities bindings e).verdicts.Refuses outer.path := by
  have hdeeper : outer.depth < inner.depth :=
    Expr.depth_lt_of_inside houter hinner hpath (List.cons_ne_nil 0 [])
  rcases Expr.querySites_split_of_lt hinner houter hdeeper with
    ⟨before, between, after, hsplit, hothers, hothers'⟩
  have hfirst : ∀ parent i, 1 ≤ i → inner.path ≠ parent ++ [i] := fun parent i hi =>
    hpath ▸ first_ne_later hi
  -- The verdict on the inner query is there when the outer one is judged.
  have hrefused : ((before ++ inner :: between).foldl (CallSite.judge capabilities bindings)
      ⟨.empty, []⟩).verdicts.Refuses (outer.path ++ [0]) := by
    rcases h with ⟨reason, hget⟩
    rw [get?_delegation_of_judged hinner hquery' hfirst hsplit hothers, hpath] at hget
    exact ⟨reason, hget⟩
  have hsplit' : e.querySites = (before ++ inner :: between) ++ outer :: after := by
    simpa using hsplit
  rw [delegation_verdicts hsplit', List.foldl_cons]
  refine CallSite.foldl_judge_refuses houter (fun s hs => ⟨?_, hothers' s hs⟩)
    (CallSite.judge_refuses hquery hrefused)
  rw [hsplit']
  exact List.mem_append_right _ (List.mem_cons_of_mem _ hs)

/-- A refusal is passed on along a series of queries: when a query has its rows from a refused one,
seen through any number of queries that keep rows, it is refused as well. -/
theorem refuses_of_readsFrom (capabilities : CapabilityTable) (bindings : Bindings) (e : Expr)
    (outer inner : CallSite) (q : Query) (houter : outer ∈ e.querySites)
    (hinner : inner ∈ e.querySites) (hquery : outer.query? capabilities bindings = some q)
    (hreads : outer.ReadsFrom rowQueryFunctions inner)
    (h : (delegation capabilities bindings e).verdicts.Refuses inner.path) :
    (delegation capabilities bindings e).verdicts.Refuses outer.path := by
  rcases hreads with ⟨table, rest, rel, harguments, hrows, hpath⟩
  -- The induction is on the way to the inner query; every step is a query of its own.
  generalize hexpr : inner.expr = innerTable at hrows
  induction hrows generalizing outer rest q with
  | here table =>
      rcases CallSite.exists_query? hquery harguments hpath hexpr with ⟨q', hquery'⟩
      exact refuses_of_direct houter hinner hquery hquery' hpath h
  | @first function first _ rest' span rel hfunction hrows ih =>
      let table : CallSite := ⟨outer.path ++ [0], e.callDepth (outer.path ++ [0]), function,
        first :: rest', [], span⟩
      have htable : table ∈ e.querySites := by
        have hname : function ∈ queryFunctions :=
          List.contains_iff_mem.mp (List.mem_filter.mp hfunction).2
        exact Expr.mem_querySites_iff.mpr ⟨CallSite.at?_first houter harguments, rfl, hname, rfl⟩
      obtain ⟨q', hquery'⟩ : ∃ q', table.query? capabilities bindings = some q' :=
        CallSite.exists_query? hquery harguments rfl rfl
      have hrefused := ih table q' htable hquery' rest' rfl (by simpa [table] using hpath) hexpr
      exact refuses_of_direct houter htable hquery hquery' rfl hrefused

/-! ## Losing a refusal -/

/-- The arguments of a call behind the first, and their parts, are not the first argument of a call
that is listed behind it. -/
theorem CallSite.argument_ne_first {site : CallSite} {i : Nat} (houter : outer ∈ e.querySites)
    (hsite : site ∈ e.querySites) (hdepth : outer.depth ≤ site.depth) (hi : 1 ≤ i) (rel : Path) :
    site.path ++ i :: rel ≠ outer.path ++ [0] := by
  intro hpath
  rcases List.eq_nil_or_concat rel with rfl | ⟨inner, last, rfl⟩
  · exact first_ne_later hi hpath.symm
  · rw [List.concat_eq_append, ← List.cons_append, ← List.append_assoc] at hpath
    have hinside : outer.path = site.path ++ i :: inner := (List.append_inj' hpath rfl).1.symm
    have hdeeper := Expr.depth_lt_of_inside hsite houter hinside (List.cons_ne_nil i inner)
    omega

/-- A table that is no query has no verdict when the query that reads it is judged. -/
theorem CallSite.get?_foldl_judge_table {sites : List CallSite} (houter : outer ∈ e.querySites)
    (htable : ∀ s ∈ e.querySites, s.path ≠ outer.path ++ [0])
    (hsites : ∀ s ∈ sites, s ∈ e.querySites ∧ outer.depth ≤ s.depth) {judging : Judging}
    (h : judging.verdicts.get? (outer.path ++ [0]) = none) :
    (sites.foldl (judge capabilities bindings) judging).verdicts.get? (outer.path ++ [0]) =
      none := by
  induction sites generalizing judging with
  | nil => exact h
  | cons site rest ih =>
      refine ih (fun s hs => hsites s (List.mem_cons_of_mem _ hs)) ?_
      rcases hsites site (List.mem_cons_self ..) with ⟨hsite, hdepth⟩
      unfold judge
      split
      · exact h
      refine Judgement.get?_foldl_induct (P := (· = none)) h ?_
      intro j hj hpath
      rcases List.mem_append.mp hj with hj | hj
      · rcases rulings_writes hj with ⟨i, _, rel, _, hi, -, -, hpath', -⟩
        exact absurd (hpath'.symm.trans hpath) (argument_ne_first houter hsite hdepth hi rel)
      · obtain rfl := List.mem_singleton.mp hj
        exact absurd hpath (htable site hsite)

/-- Through a table that is no query itself nothing is passed on: a query over it has the verdict of
its own arguments, whatever was found further inside. -/
theorem verdict_over_table {table : Expr} {rest : List Expr} (houter : outer ∈ e.querySites)
    (hquery : outer.query? capabilities bindings = some q)
    (harguments : outer.arguments = table :: rest) (htable : isQueryCall table = false)
    (hfirst : ∀ parent i, 1 ≤ i → outer.path ≠ parent ++ [i]) :
    (delegation capabilities bindings e).verdicts.get? outer.path =
      some (.all ((outer.rulings q).map (·.verdict))) := by
  have hnoSite : ∀ s ∈ e.querySites, s.path ≠ outer.path ++ [0] := by
    intro s hs hpath
    rcases Expr.mem_querySites_iff.mp hs with ⟨hat, -, hfunction, -⟩
    rw [hpath, CallSite.at?_first houter harguments, Option.some.injEq] at hat
    simp [hat, CallSite.expr, isQueryCall, hfunction] at htable
  rcases Expr.querySites_split houter with ⟨before, after, hsplit, hbefore, hafter, -⟩
  have hmem : ∀ s, s ∈ before ∨ s ∈ after → s ∈ e.querySites := by
    intro s hs
    rw [hsplit, List.mem_append, List.mem_cons]
    exact hs.imp_right Or.inr
  have hnone : (before.foldl (CallSite.judge capabilities bindings) ⟨.empty, []⟩).verdicts.get?
      (outer.path ++ [0]) = none :=
    CallSite.get?_foldl_judge_table houter hnoSite
      (fun s hs => ⟨hmem s (Or.inl hs), hbefore s hs⟩) (OrderedMap.get?_empty _)
  rw [delegation_verdicts hsplit, List.foldl_cons]
  refine CallSite.foldl_judge_keeps houter hfirst
    (fun s hs => ⟨hmem s (Or.inr hs), (hafter s hs).2⟩) ?_
  rw [CallSite.get?_judge_self hquery, CallSite.innerVerdict, hnone]
  rfl

/-! ## Sorting a filtered table -/

/-- A field of the orders that can only be compared for equality. -/
def statusField : Expr :=
  .name (.plain "Status") default [] default

/-- The query {lit}`Filter(Orders, Status > 1)`, two calls deep. -/
def laterOrders : CallSite :=
  ⟨[0, 0], 2, "Filter",
    [.name (.plain "Orders") default [] default,
      .binary .greater statusField (.literal (.number (.whole 1) "1") default) default], [],
    default⟩

/-- The query that sorts a table by the field. -/
def sortByStatus (path : Path) (depth : Nat) (table : Expr) : CallSite :=
  ⟨path, depth, "Sort", [table, statusField], [], default⟩

/-- The query {lit}`Sort(Sort(Filter(Orders, Status > 1), Status), Status)`. -/
def sortedTwice : CallSite :=
  sortByStatus [] 0 (sortByStatus [0] 1 laterOrders.expr).expr

/-- The query {lit}`Sort(FirstN(Filter(Orders, Status > 1), 5), Status)`. -/
def sortedFirst : CallSite :=
  sortByStatus [] 0
    (.call "FirstN" [laterOrders.expr, .literal (.number (.whole 5) "5") default] [] default)

/-- The bindings of the names of a formula about orders. -/
def orderBindings (e : Expr) : Bindings :=
  (resolve orderSymbols {} e).bindings

/-- The query over the orders that such a formula makes. -/
def orderQuery (e : Expr) : Query :=
  ⟨"Orders", orderFields, orderBindings e⟩

/-- The inner query is refused in every formula that has it two calls deep. -/
theorem laterOrders_refused (e : Expr) (hmem : laterOrders ∈ e.querySites)
    (hquery : laterOrders.query? orderCapabilities (orderBindings e) = some (orderQuery e))
    (hverdict : (laterOrders.rulings (orderQuery e)).map (·.verdict) =
      [.refused (.unsupported "Status" ">")]) :
    (delegation orderCapabilities (orderBindings e) e).verdicts.Refuses laterOrders.path := by
  refine ⟨.unsupported "Status" ">", ?_⟩
  have hfirst : ∀ parent i, 1 ≤ i → laterOrders.path ≠ parent ++ [i] := fun parent i hi =>
    show [0] ++ [0] ≠ parent ++ [i] from first_ne_later hi
  rw [verdict_over_table hmem hquery rfl rfl hfirst, hverdict]
  rfl

/-- Sorting a refused query twice is refused twice. -/
theorem sortedTwice_refused :
    sortedTwice.ReadsFrom rowQueryFunctions laterOrders ∧
    (delegation orderCapabilities (orderBindings sortedTwice.expr) sortedTwice.expr).verdicts.Refuses
      laterOrders.path ∧
    (delegation orderCapabilities (orderBindings sortedTwice.expr) sortedTwice.expr).verdicts.Refuses
      sortedTwice.path := by
  have houter : sortedTwice ∈ sortedTwice.expr.querySites :=
    Expr.mem_querySites_iff.mpr ⟨rfl, rfl, by decide, rfl⟩
  have hinner : laterOrders ∈ sortedTwice.expr.querySites :=
    Expr.mem_querySites_iff.mpr ⟨rfl, rfl, by decide, rfl⟩
  have hreads : sortedTwice.ReadsFrom rowQueryFunctions laterOrders :=
    ⟨_, _, [0], rfl, .first (by decide) (.here _), rfl⟩
  have hrefused := laterOrders_refused sortedTwice.expr hinner rfl (by decide)
  exact ⟨hreads, hrefused, refuses_of_readsFrom orderCapabilities (orderBindings sortedTwice.expr)
    sortedTwice.expr sortedTwice laterOrders (orderQuery sortedTwice.expr) houter hinner rfl hreads
    hrefused⟩

/-- Sorting the first rows of a refused query is delegable, although the rows are those of the
refused query and the source is seen through the call between the two. -/
theorem sortedFirst_delegable :
    sortedFirst ∈ sortedFirst.expr.querySites ∧ laterOrders ∈ sortedFirst.expr.querySites ∧
    sortedFirst.query? orderCapabilities (orderBindings sortedFirst.expr) =
      some (orderQuery sortedFirst.expr) ∧
    sortedFirst.ReadsFrom rowPreservingFunctions laterOrders ∧
    (delegation orderCapabilities (orderBindings sortedFirst.expr) sortedFirst.expr).verdicts.Refuses
      laterOrders.path ∧
    (delegation orderCapabilities (orderBindings sortedFirst.expr) sortedFirst.expr).verdicts.get?
      sortedFirst.path = some .delegable := by
  have houter : sortedFirst ∈ sortedFirst.expr.querySites :=
    Expr.mem_querySites_iff.mpr ⟨rfl, rfl, by decide, rfl⟩
  have hinner : laterOrders ∈ sortedFirst.expr.querySites :=
    Expr.mem_querySites_iff.mpr ⟨rfl, rfl, by decide, rfl⟩
  refine ⟨houter, hinner, rfl, ⟨_, _, [0], rfl, .first (by decide) (.here _), rfl⟩,
    laterOrders_refused _ hinner rfl (by decide), ?_⟩
  rw [verdict_over_table houter rfl rfl rfl fun parent i _ hpath => ?_]
  · decide
  · simp [sortedFirst, sortByStatus] at hpath

end FormulaLint
