import FormulaLint.Proofs.Binding.Scopes
import FormulaLint.Proofs.Calls
import FormulaLint.Proofs.Delegation.Policy

/-!
# Fields of the row of a query

A query that opens a record scope puts one frame of its own, over its source, into the scope of its
arguments behind the first.  What counts as a field of the row is decided by the source alone: a name
counts exactly when the frame that it is bound to is a frame over the source of the query.  Where the
frame of the query is the only one over the source, these are the names bound to that very frame; a
second frame over the same source, such as that of a gallery, counts as well.

Main results:

- Theorem {lit}`Expr.own_frame`: the frame of a query in the scope of its arguments.
- Theorem {lit}`Query.readsField_iff`: a field of the row, by the frame that a name is bound to.
- Theorem {lit}`rowField_by_frame`: what counts as a field of the row.
-/

namespace FormulaLint

/-- The field of a record that a bound name reads. -/
def Binding.readField? (b : Binding) : Option String :=
  match b.kind with
  | .dataSourceField => some b.name
  | .contextKeyword => b.member
  | _ => none

variable {symbols : SymbolTable} {scope : Scope} {capabilities : CapabilityTable} {e : Expr}
  {site : CallSite} {q : Query}

/-- The frame of a query stands behind the frames of the scope of the call, in the scope of every
part of the arguments behind the first. -/
theorem Expr.own_frame (hsite : site ∈ e.querySites)
    (hrows : site.function ∈ recordScopeFunctions)
    (hquery : site.query? capabilities (resolve symbols scope e).bindings = some q) {i : Nat}
    {rel : Path} {part : Expr} (hi : 1 ≤ i) (hpart : e.at? (site.path ++ i :: rel) = some part) :
    (e.scopeAt symbols scope (site.path ++ i :: rel)).frames[
        (e.scopeAt symbols scope site.path).frames.length]? =
      some (symbols.rowFrame (some q.source)) := by
  rcases Expr.mem_querySites_iff.mp hsite with ⟨hcall, -, -, hplain⟩
  rcases CallSite.query?_eq_some_iff.mp hquery with ⟨first, rest, harguments, hsource, -, -⟩
  rw [CallSite.expr, harguments, hplain] at hcall
  rw [Expr.at?_append_of hcall] at hpart
  rcases Expr.at?_cons.mp hpart with ⟨c, hc, -⟩
  have htable := ((resolve_resolves symbols scope e).part hcall).child
    (show (Expr.call site.function (first :: rest) [] site.span).children[0]? = some first from rfl)
  rw [Expr.childScope_zero, List.nil_append] at htable
  have hrowTable : (Expr.call site.function (first :: rest) [] site.span).rowTable? i = some first :=
    Expr.rowTable?_eq_some_iff.mpr ⟨_, _, _, rfl, hrows, hi⟩
  rw [Expr.scopeAt_append hcall, Expr.scopeAt_cons hc, Expr.childScope_of_rows hrowTable,
    ← tableSource_eq_sourceIn htable, hsource]
  rcases Expr.scopeAt_eq symbols ((e.scopeAt symbols scope site.path).push
    (symbols.rowFrame (some q.source))) c rel with ⟨inner, hinner⟩
  simp [hinner]

namespace Query

/-- A name reads a field of the row exactly when the frame that it is bound to is over the source of
the query.  Some frame over the source has to be there: without one, a field of the source is read
from no frame at all. -/
theorem readsField_iff {path : Path} {scope : Scope} {identifier : Identifier}
    {identifierSpan span : Span} {chain : List Segment} {position : Option Nat} {b : Binding}
    {field : String} (hget : q.bindings.get? path = some b)
    (hmeans : NameReference.Means symbols scope ⟨identifier, identifierSpan, chain⟩ position b)
    (hframe : ∃ frame ∈ scope.frames, frame.source = some q.source) :
    q.ReadsField path (.name identifier identifierSpan chain span) field ↔
      ∃ j frame, position = some j ∧ scope.frames[j]? = some frame ∧
        frame.source = some q.source ∧ b.readField? = some field := by
  have hreads : q.ReadsField path (.name identifier identifierSpan chain span) field ↔
      b.kind = .dataSourceField ∧ b.source = some q.source ∧ b.name = field ∨
        b.kind = .contextKeyword ∧ b.member = some field ∧
          ∃ frame, b.frame = some frame ∧ frame.source = some q.source := by
    simp [ReadsField, hget]
  rw [hreads]
  cases hmeans with
  | rowField _ row => simp [Binding.readField?, row.found]
  | assumed _ _ _ row => simp [Binding.readField?, row.found]
  | current _ _ _ row => simp [Binding.readField?, row.found, and_comm]
  | sourceField _ row _ => simp [Binding.readField?, row.found, row.holds]
  | @declaredField source _ _ noRow _ _ =>
      rcases hframe with ⟨frame, hmem, hover⟩
      have hother : source ≠ q.source := fun h => noRow frame hmem (h ▸ hover)
      simp [hother]
  | declared _ _ _ | global _ _ => simp
  | undefined _ _ _ _ | undeclared _ _ | missingField _ _ _ _ | missingDeclaredField _ _ _ _ _
  | noSource _ _ _ | self _ | parent _ | unavailable _ _ _ _ => simp

/-- A name that reads no field of the row is delegable, unless it stands for nothing. -/
theorem delegable_of_rowField_none {path : Path} {operand : Expr} {b : Binding}
    (h : q.rowField path operand = none) (hget : q.bindings.get? path = some b) :
    (∀ tag spelling, q.checkField path operand tag spelling = .delegable) ∧
      ∀ name, b.kind ≠ .unresolved → q.judgeName path operand name = .delegable := by
  constructor
  · intro tag spelling
    simp only [checkField, h]
  · intro name hkind
    simp only [judgeName, hget, h, if_neg hkind]

end Query

/-- What counts as a field of the row, for a name among the arguments of a query that opens a record
scope.  The frame of the query stands at position {lit}`own` of the scope of the name.  A name counts
exactly when the frame that it is bound to is over the source of the query.  So where the frame of
the query is the only one over the source, a name that is bound to another frame, or to none, does
not count: it is delegable as an operand, and by itself unless it stands for nothing. -/
theorem rowField_by_frame (symbols : SymbolTable) (scope : Scope) (capabilities : CapabilityTable)
    (e : Expr) (site : CallSite) (q : Query) (hsite : site ∈ e.querySites)
    (hrows : site.function ∈ recordScopeFunctions)
    (hquery : site.query? capabilities (resolve symbols scope e).bindings = some q)
    (i : Nat) (hi : 1 ≤ i) (rel : Path) (identifier : Identifier) (identifierSpan : Span)
    (chain : List Segment) (span : Span)
    (hname : e.at? (site.path ++ i :: rel) = some (.name identifier identifierSpan chain span))
    (position : Option Nat) (b : Binding)
    (hmeans : NameReference.Means symbols (e.scopeAt symbols scope (site.path ++ i :: rel))
      ⟨identifier, identifierSpan, chain⟩ position b) :
    let path := site.path ++ i :: rel
    let name : Expr := .name identifier identifierSpan chain span
    let frames := (e.scopeAt symbols scope path).frames
    let own := (e.scopeAt symbols scope site.path).frames.length
    frames[own]? = some (symbols.rowFrame (some q.source)) ∧
    (∀ field, q.rowField path name = some field ↔
      ∃ j frame, position = some j ∧ frames[j]? = some frame ∧ frame.source = some q.source ∧
        b.readField? = some field) ∧
    ((∀ j frame, frames[j]? = some frame → frame.source = some q.source → j = own) →
      position ≠ some own →
        q.rowField path name = none ∧
        (∀ tag spelling, q.checkField path name tag spelling = .delegable) ∧
        (b.kind ≠ .unresolved → q.judgeName path name identifier.name = .delegable)) := by
  intro path name frames own
  have hown : frames[own]? = some (symbols.rowFrame (some q.source)) :=
    Expr.own_frame hsite hrows hquery hi hname
  have hget : q.bindings.get? path = some b := by
    rcases CallSite.query?_eq_some_iff.mp hquery with ⟨-, -, -, -, -, hbindings⟩
    rw [hbindings, ← hmeans.bind_eq]
    exact resolve_resolves symbols scope e path _ _ _ _ hname
  have hfield : ∀ field, q.rowField path name = some field ↔
      ∃ j frame, position = some j ∧ frames[j]? = some frame ∧ frame.source = some q.source ∧
        b.readField? = some field := fun field =>
    Query.rowField_iff.trans
      (Query.readsField_iff hget hmeans ⟨_, List.mem_of_getElem? hown, rfl⟩)
  refine ⟨hown, hfield, fun honly hposition => ?_⟩
  have hnone : q.rowField path name = none := by
    rw [Option.eq_none_iff_forall_ne_some]
    intro field hsome
    rcases (hfield field).mp hsome with ⟨j, frame, rfl, hj, hover, -⟩
    exact hposition (congrArg some (honly j frame hj hover))
  rcases Query.delegable_of_rowField_none hnone hget with ⟨hoperand, hitself⟩
  exact ⟨hnone, hoperand, hitself identifier.name⟩

/-! ## A query inside a gallery -/

/-- One data source with two fields. -/
def orderSymbols : SymbolTable :=
  .build .empty ⟨[("Orders", ["Status", "Notes"])]⟩

/-- The source compares one field for equality and cannot filter by the other. -/
def orderFields : FieldCapabilities :=
  ⟨[("Status", ⟨true, true, true, ["eq"]⟩), ("Notes", ⟨false, true, true, []⟩)]⟩

/-- What the one source can do. -/
def orderCapabilities : CapabilityTable :=
  ⟨⟨[("Orders", orderFields)]⟩⟩

/-- The scope of the template of a gallery over a source. -/
def galleryScope (source : String) : Scope :=
  { frames := [⟨.item, some source, some ["Status", "Notes"]⟩] }

/-- The item of the gallery: {lit}`ThisItem.Notes`. -/
def itemNotes : Expr :=
  .name (.context "ThisItem") default [⟨.dot, "Notes", default⟩] default

/-- The call {lit}`Filter(Orders, Status = ThisItem.Notes)`. -/
def itemFilter : CallSite :=
  ⟨[], 0, "Filter",
    [.name (.plain "Orders") default [] default,
      .binary .equal (.name (.plain "Status") default [] default) itemNotes default], [], default⟩

/-- The query that the call makes in the template of a gallery. -/
def itemQuery (source : String) : Query :=
  ⟨"Orders", orderFields, (resolve orderSymbols (galleryScope source) itemFilter.expr).bindings⟩

/-- The frames that the item is read in: that of the gallery, and that of the query behind it. -/
theorem itemFilter_frames (source : String) :
    (itemFilter.expr.scopeAt orderSymbols (galleryScope source) [1, 1]).frames =
      [⟨.item, some source, some ["Status", "Notes"]⟩,
        ⟨.record, some "Orders", some ["Status", "Notes"]⟩] := by
  rfl

/-- The item is bound to the frame of the gallery. -/
theorem itemNotes_means (source : String) :
    NameReference.Means orderSymbols
      (itemFilter.expr.scopeAt orderSymbols (galleryScope source) [1, 1])
      ⟨.context "ThisItem", default, [⟨.dot, "Notes", default⟩]⟩ (some 0)
      ⟨.contextKeyword, "ThisItem", some source,
        some ⟨.item, some source, some ["Status", "Notes"]⟩, some "Notes"⟩ := by
  have row : Innermost (·.Answers "ThisItem")
      (itemFilter.expr.scopeAt orderSymbols (galleryScope source) [1, 1]).frames 0
      ⟨.item, some source, some ["Status", "Notes"]⟩ := by
    rw [itemFilter_frames]
    refine ⟨rfl, fun _ => rfl, ?_⟩
    intro j other hj hother hanswers
    match j with
    | 1 =>
        cases hother
        exact absurd (hanswers rfl) (by decide)
    | j + 2 => simp at hother
  exact .current rfl (by decide) (by decide) row

/-- The call queries a source. -/
theorem itemFilter_mem : itemFilter ∈ itemFilter.expr.querySites :=
  Expr.mem_querySites_iff.mpr ⟨rfl, rfl, by decide, rfl⟩

/-- In a gallery over another source, the item is no field of the row, so comparing with it is
delegable. -/
theorem item_of_other_source :
    itemFilter.query? orderCapabilities
        (resolve orderSymbols (galleryScope "Products") itemFilter.expr).bindings =
      some (itemQuery "Products") ∧
    itemFilter.expr.at? [1, 1] = some itemNotes ∧
    (itemQuery "Products").rowField [1, 1] itemNotes = none ∧
    (itemQuery "Products").checkField [1, 1] itemNotes "eq" "=" = .delegable ∧
    (itemQuery "Products").judgeName [1, 1] itemNotes "ThisItem" = .delegable := by
  have honly : ∀ j frame,
      (itemFilter.expr.scopeAt orderSymbols (galleryScope "Products") [1, 1]).frames[j]? =
        some frame → frame.source = some "Orders" → j = 1 := by
    intro j frame hj hover
    rw [itemFilter_frames] at hj
    match j with
    | 0 =>
        cases hj
        exact absurd hover (by decide)
    | 1 => rfl
    | j + 2 => simp at hj
  rcases (rowField_by_frame orderSymbols (galleryScope "Products") orderCapabilities
    itemFilter.expr itemFilter (itemQuery "Products") itemFilter_mem (by decide) rfl 1 (by decide)
    [1] (.context "ThisItem") default [⟨.dot, "Notes", default⟩] default rfl (some 0) _
    (itemNotes_means "Products")).2.2 honly (by decide) with ⟨hnone, hoperand, hitself⟩
  exact ⟨rfl, rfl, hnone, hoperand "eq" "=", hitself (by decide)⟩

/-- In a gallery over the source of the query, the item counts as a field of the row although it is
bound to the frame of the gallery, at position 0, and not to that of the query, at position 1.  So
it is refused, for a field that the source cannot filter by. -/
theorem item_of_same_source :
    itemFilter ∈ itemFilter.expr.querySites ∧ itemFilter.function ∈ recordScopeFunctions ∧
    itemFilter.query? orderCapabilities
        (resolve orderSymbols (galleryScope "Orders") itemFilter.expr).bindings =
      some (itemQuery "Orders") ∧
    itemFilter.expr.at? [1, 1] = some itemNotes ∧
    NameReference.Means orderSymbols
      (itemFilter.expr.scopeAt orderSymbols (galleryScope "Orders") [1, 1])
      ⟨.context "ThisItem", default, [⟨.dot, "Notes", default⟩]⟩ (some 0)
      ⟨.contextKeyword, "ThisItem", some "Orders",
        some ⟨.item, some "Orders", some ["Status", "Notes"]⟩, some "Notes"⟩ ∧
    (itemFilter.expr.scopeAt orderSymbols (galleryScope "Orders") itemFilter.path).frames.length =
      1 ∧
    (itemQuery "Orders").rowField [1, 1] itemNotes = some "Notes" ∧
    (itemQuery "Orders").judgeName [1, 1] itemNotes "ThisItem" =
      .refused (.unfilterableField "Notes") :=
  ⟨itemFilter_mem, by decide, rfl, rfl, itemNotes_means "Orders", rfl, by decide, by decide⟩

end FormulaLint
