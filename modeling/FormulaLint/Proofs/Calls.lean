import FormulaLint.Delegation.Report
import FormulaLint.Proofs.Paths

/-!
# The calls of an expression

The calls that are found in an expression are exactly the parts that call a function, each with the
number of calls around it.  The calls with certain names, and among them those that query a source,
are put in the order of that number, so that a call comes before every call around it.

Main results:

- Theorem {lit}`Expr.mem_callsFrom`: exactly the calls of an expression are found.
- Theorem {lit}`Expr.callDepth_lt`: a call inside another one has more calls around it.
- Theorem {lit}`Expr.mem_calls_iff`: the calls with one of the given names.
- Theorem {lit}`Expr.pairwise_depth_calls`: the most deeply nested calls are listed first.
- Theorem {lit}`Expr.mem_querySites_iff`: the calls that query a source.
- Theorem {lit}`Expr.querySites_split_of_lt`: a call with more calls around it is listed first.
- Theorem {lit}`CallSite.query?_eq_some_iff`: when a call makes a query.
-/

namespace FormulaLint

/-- The call that was found. -/
def CallSite.expr (site : CallSite) : Expr :=
  .call site.function site.arguments site.qualifiers site.span

namespace Expr

/-- Whether an expression calls a function. -/
def isCall : Expr → Bool
  | .call _ _ _ _ => true
  | _ => false

/-- The number of calls around the part at a path. -/
def callDepth : Expr → Path → Nat
  | _, [] => 0
  | e, i :: rest =>
      match e.children[i]? with
      | some c => e.isCall.toNat + c.callDepth rest
      | none => 0

/-- The call that an expression makes itself. -/
def ownSites (here : Path) (depth : Nat) : Expr → List CallSite
  | .call function arguments qualifiers span =>
      [⟨here, depth, function, arguments, qualifiers, span⟩]
  | _ => []

variable {e c part : Expr}

/-- The calls around the parts of a child. -/
theorem callDepth_cons {i : Nat} (h : e.children[i]? = some c) (rest : Path) :
    e.callDepth (i :: rest) = e.isCall.toNat + c.callDepth rest := by
  rw [callDepth, h]

/-- The calls around a part, in two stages. -/
theorem callDepth_append {p : Path} (h : e.at? p = some part) (q : Path) :
    e.callDepth (p ++ q) = e.callDepth p + part.callDepth q := by
  induction p generalizing e with
  | nil =>
      obtain rfl : e = part := by simpa using h
      simp [callDepth]
  | cons i rest ih =>
      rcases at?_cons.mp h with ⟨c, hc, hrest⟩
      rw [List.cons_append, callDepth_cons hc, callDepth_cons hc, ih hrest, Nat.add_assoc]

/-- A part inside a call has more calls around it than the call. -/
theorem callDepth_lt {p q : Path} (h : e.at? p = some part) (hcall : part.isCall = true)
    (hq : q ≠ []) (hpart : (part.at? q).isSome = true) :
    e.callDepth p < e.callDepth (p ++ q) := by
  rcases List.exists_cons_of_ne_nil hq with ⟨i, rest, rfl⟩
  rcases Option.isSome_iff_exists.mp hpart with ⟨inner, hinner⟩
  rcases at?_cons.mp hinner with ⟨c, hc, -⟩
  rw [callDepth_append h, callDepth_cons hc, hcall, Bool.toNat_true]
  omega

end Expr

/-! ## Finding calls -/

/-- The calls of the children are those of each child. -/
theorem callsAll_eq_flatMap (here : Path) (index depth : Nat) (es : List Expr) :
    callsAll here index depth es =
      (es.zipIdx index).flatMap fun c => c.1.callsFrom (here ++ [c.2]) depth := by
  induction es generalizing index with
  | nil => rfl
  | cons e rest ih => rw [callsAll, ih, List.zipIdx_cons, List.flatMap_cons]

/-- The calls of field values are those of the list of values. -/
theorem callsFields_eq (here : Path) (index depth : Nat) (fields : List Field) :
    callsFields here index depth fields =
      callsAll here index depth (fields.map Field.value) := by
  induction fields generalizing index with
  | nil => rfl
  | cons field rest ih =>
      rcases field with ⟨name, value, span⟩
      rw [callsFields, ih, List.map_cons, callsAll]
      rfl

namespace Expr

variable {e : Expr} {here : Path} {depth : Nat} {site site' : CallSite}

/-- The calls of an expression are its own and those of each child. -/
theorem callsFrom_eq (here : Path) (depth : Nat) (e : Expr) :
    e.callsFrom here depth = e.ownSites here depth ++
      e.children.zipIdx.flatMap fun c => c.1.callsFrom (here ++ [c.2]) (depth + e.isCall.toNat) := by
  cases e <;>
    simp [callsFrom, ownSites, children, isCall, callsFields_eq, callsAll_eq_flatMap]

/-- The call that an expression makes itself is the expression. -/
theorem mem_ownSites :
    site ∈ e.ownSites here depth ↔ site.path = here ∧ e = site.expr ∧ site.depth = depth := by
  rcases site with ⟨path, siteDepth, function, arguments, qualifiers, span⟩
  cases e with
  | call =>
      simp only [ownSites, List.mem_singleton, CallSite.mk.injEq, CallSite.expr, call.injEq]
      constructor
      · rintro ⟨rfl, rfl, rfl, rfl, rfl, rfl⟩
        exact ⟨rfl, ⟨rfl, rfl, rfl, rfl⟩, rfl⟩
      · rintro ⟨rfl, ⟨rfl, rfl, rfl, rfl⟩, rfl⟩
        exact ⟨rfl, rfl, rfl, rfl, rfl, rfl⟩
  | _ => simp [ownSites, CallSite.expr]

/-- Exactly the calls of an expression are found, each with the number of calls around it. -/
theorem mem_callsFrom :
    site ∈ e.callsFrom here depth ↔ ∃ rel, site.path = here ++ rel ∧
      e.at? rel = some site.expr ∧ site.depth = depth + e.callDepth rel := by
  induction e using Expr.children_induct generalizing here depth with
  | step e ih =>
      rw [callsFrom_eq, List.mem_append, mem_ownSites, List.mem_flatMap]
      constructor
      · rintro (⟨hpath, hexpr, hdepth⟩ | ⟨⟨c, i⟩, hc, hsite⟩)
        · exact ⟨[], by simpa using hpath, by simpa using hexpr, by simpa [callDepth] using hdepth⟩
        · have hchild := List.mem_zipIdx_iff_getElem?.mp hc
          rcases (ih c (List.mem_of_getElem? hchild)).mp hsite with ⟨rel, hpath, hat, hdepth⟩
          refine ⟨i :: rel, by simpa using hpath, at?_cons.mpr ⟨c, hchild, hat⟩, ?_⟩
          rw [callDepth_cons hchild, hdepth, Nat.add_assoc]
      · rintro ⟨rel, hpath, hat, hdepth⟩
        cases rel with
        | nil =>
            exact Or.inl ⟨by simpa using hpath, by simpa using hat, by simpa [callDepth] using hdepth⟩
        | cons i rel =>
            rcases at?_cons.mp hat with ⟨c, hchild, hat⟩
            refine Or.inr ⟨(c, i), List.mem_zipIdx_iff_getElem?.mpr hchild, ?_⟩
            refine (ih c (List.mem_of_getElem? hchild)).mpr ⟨rel, by simpa using hpath, hat, ?_⟩
            rw [hdepth, callDepth_cons hchild, Nat.add_assoc]

/-- No call is found twice. -/
theorem pairwise_callsFrom (here : Path) (depth : Nat) (e : Expr) :
    (e.callsFrom here depth).Pairwise fun a b => a.path ≠ b.path := by
  induction e using Expr.children_induct generalizing here depth with
  | step e ih =>
      rw [callsFrom_eq, List.pairwise_append]
      have hthrough : ∀ c ∈ e.children.zipIdx,
          ∀ site ∈ c.1.callsFrom (here ++ [c.2]) (depth + e.isCall.toNat),
            ∃ rel, site.path = here ++ c.2 :: rel := by
        intro c _ site hsite
        rcases mem_callsFrom.mp hsite with ⟨rel, hrel, -, -⟩
        exact ⟨rel, by simpa using hrel⟩
      refine ⟨?_, pairwise_flatMap_children hthrough fun c hc => ?_, fun a ha b hb hpath => ?_⟩
      · cases e <;> simp [ownSites]
      · exact ih c.1 (List.fst_mem_of_mem_zipIdx hc) _ _
      · rcases List.mem_flatMap.mp hb with ⟨c, hc, hb⟩
        rcases hthrough c hc b hb with ⟨rel, hrel⟩
        rw [(mem_ownSites.mp ha).1, hrel] at hpath
        simp at hpath

/-! ## Calls by name -/

/-- The calls with one of the given names are found, each with the number of calls around it. -/
theorem mem_calls_iff {names : Option (List String)} :
    site ∈ e.calls names ↔ e.at? site.path = some site.expr ∧
      site.depth = e.callDepth site.path ∧ site.hasName names = true := by
  rw [calls, callsAt, List.mem_mergeSort, List.mem_filter, mem_callsFrom]
  simp [and_assoc]

/-- A call inside another one is listed with more calls around it. -/
theorem depth_lt_of_mem_calls {names : Option (List String)} {rel : Path} (h : site ∈ e.calls names)
    (h' : site' ∈ e.calls names) (hpath : site'.path = site.path ++ rel) (hrel : rel ≠ []) :
    site.depth < site'.depth := by
  rcases mem_calls_iff.mp h with ⟨hat, hdepth, -⟩
  rcases mem_calls_iff.mp h' with ⟨hat', hdepth', -⟩
  rw [hpath, at?_append_of hat] at hat'
  rw [hdepth, hdepth', hpath]
  exact callDepth_lt hat rfl hrel (Option.isSome_of_eq_some hat')

/-- Calls are listed in the order of the calls around them, the most deeply nested first. -/
theorem pairwise_depth_calls (e : Expr) (names : Option (List String)) :
    (e.calls names).Pairwise fun a b => b.depth ≤ a.depth := by
  have hsorted := @List.pairwise_mergeSort CallSite (fun a b => decide (b.depth ≤ a.depth))
    (fun a b c hab hbc => by simp only [decide_eq_true_eq] at *; omega)
    (fun a b => by simp only [Bool.or_eq_true, decide_eq_true_eq]; omega)
    ((e.callsFrom [] 0).filter (·.hasName names))
  exact hsorted.imp fun {a b} h => by simpa using h

/-- No call is listed twice. -/
theorem pairwise_path_calls (e : Expr) (names : Option (List String)) :
    (e.calls names).Pairwise fun a b => a.path ≠ b.path := by
  refine (List.mergeSort_perm _ _).symm.pairwise ?_ fun h => h.symm
  exact (pairwise_callsFrom [] 0 e).filter _

/-! ## Calls that query a source -/

/-- The calls that query a source, in the order in which they are judged. -/
def querySites (e : Expr) : List CallSite :=
  (e.calls (some queryFunctions)).filter (·.qualifiers.isEmpty)

/-- A call without qualifiers has one of the given names by its function alone. -/
theorem hasName_iff {names : List String} (h : site.qualifiers = []) :
    site.hasName (some names) = true ↔ site.function ∈ names := by
  have hname : site.qualifiedName = site.function := by
    rw [CallSite.qualifiedName, h]
    rfl
  simp [CallSite.hasName, hname]

/-- The calls that query a source are those of certain functions, without qualifiers. -/
theorem mem_querySites_iff :
    site ∈ e.querySites ↔ e.at? site.path = some site.expr ∧
      site.depth = e.callDepth site.path ∧ site.function ∈ queryFunctions ∧
      site.qualifiers = [] := by
  rw [querySites, List.mem_filter, mem_calls_iff, List.isEmpty_iff]
  constructor
  · rintro ⟨⟨hat, hdepth, hname⟩, hplain⟩
    exact ⟨hat, hdepth, (hasName_iff hplain).mp hname, hplain⟩
  · rintro ⟨hat, hdepth, hname, hplain⟩
    exact ⟨⟨hat, hdepth, (hasName_iff hplain).mpr hname⟩, hplain⟩

/-- A call that queries a source has more calls around it than one that it is inside. -/
theorem depth_lt_of_inside {rel : Path} (h : site ∈ e.querySites) (h' : site' ∈ e.querySites)
    (hpath : site'.path = site.path ++ rel) (hrel : rel ≠ []) : site.depth < site'.depth :=
  depth_lt_of_mem_calls (List.mem_of_mem_filter h) (List.mem_of_mem_filter h') hpath hrel

/-- The calls that query a source are in the order of the calls around them, the most deeply nested
first. -/
theorem pairwise_depth_querySites (e : Expr) :
    e.querySites.Pairwise fun a b => b.depth ≤ a.depth :=
  (e.pairwise_depth_calls _).filter _

/-- No call that queries a source is listed twice. -/
theorem pairwise_path_querySites (e : Expr) :
    e.querySites.Pairwise fun a b => a.path ≠ b.path :=
  (e.pairwise_path_calls _).filter _

/-- The calls listed in front of a call have at least as many calls around them, those behind it at
most as many and other paths. -/
theorem querySites_split (h : site ∈ e.querySites) :
    ∃ before after, e.querySites = before ++ site :: after ∧
      (∀ s ∈ before, site.depth ≤ s.depth) ∧
      (∀ s ∈ after, s.depth ≤ site.depth ∧ s.path ≠ site.path) ∧
      after.Pairwise fun a b => a.path ≠ b.path := by
  rcases List.append_of_mem h with ⟨before, after, hsplit⟩
  have hdepth := pairwise_depth_querySites e
  have hpath := pairwise_path_querySites e
  rw [hsplit, List.pairwise_append, List.pairwise_cons] at hdepth hpath
  refine ⟨before, after, hsplit, fun s hs => ?_, fun s hs => ⟨?_, ?_⟩, hpath.2.1.2⟩
  · exact hdepth.2.2 s hs site (List.mem_cons_self ..)
  · exact hdepth.2.1.1 s hs
  · exact (hpath.2.1.1 s hs).symm

/-- A call with more calls around it is listed first, and no call is listed twice. -/
theorem querySites_split_of_lt (hdeep : site' ∈ e.querySites) (hshallow : site ∈ e.querySites)
    (hdepth : site.depth < site'.depth) :
    ∃ before between after, e.querySites = before ++ site' :: (between ++ site :: after) ∧
      (∀ s ∈ between ++ site :: after, s.path ≠ site'.path) ∧
      ∀ s ∈ after, s.path ≠ site.path := by
  rcases querySites_split hdeep with ⟨before, rest, hsplit, hbefore, hrest, hdistinct⟩
  have hbehind : site ∈ rest := by
    rw [hsplit, List.mem_append, List.mem_cons] at hshallow
    rcases hshallow with hmem | rfl | hmem
    · exact absurd (hbefore site hmem) (by omega)
    · omega
    · exact hmem
  rcases List.append_of_mem hbehind with ⟨between, after, rfl⟩
  refine ⟨before, between, after, hsplit, fun s hs => (hrest s hs).2, fun s hs => ?_⟩
  rw [List.pairwise_append, List.pairwise_cons] at hdistinct
  exact (hdistinct.2.1.1 s hs).symm

end Expr

/-- A call makes a query when its first argument reads a source that declares capabilities. -/
theorem CallSite.query?_eq_some_iff {site : CallSite} {capabilities : CapabilityTable}
    {bindings : Bindings} {q : Query} :
    site.query? capabilities bindings = some q ↔
      ∃ first rest, site.arguments = first :: rest ∧
        tableSource bindings (site.path ++ [0]) first = some q.source ∧
        capabilities.forSource q.source = some q.fields ∧ q.bindings = bindings := by
  rcases q with ⟨source, fields, bindings'⟩
  cases harguments : site.arguments with
  | nil => simp [query?, harguments]
  | cons first rest =>
      simp only [query?, harguments, List.head?_cons, Option.bind_eq_bind, Option.bind_some,
        Option.pure_def, Option.bind_eq_some_iff, Option.some.injEq, Query.mk.injEq]
      constructor
      · rintro ⟨_, hsource, _, hfields, rfl, rfl, rfl⟩
        exact ⟨first, rest, rfl, hsource, hfields, rfl⟩
      · rintro ⟨_, _, heq, hsource, hfields, rfl⟩
        rcases List.cons.inj heq with ⟨rfl, rfl⟩
        exact ⟨source, hsource, fields, hfields, rfl, rfl, rfl⟩

end FormulaLint
