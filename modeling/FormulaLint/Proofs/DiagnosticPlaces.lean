import FormulaLint.Proofs.Batches
import FormulaLint.Proofs.Binding.Warnings
import FormulaLint.Proofs.Delegation.Warnings
import FormulaLint.Proofs.Grammar.Spans
import FormulaLint.Proofs.PlaceOrder
import FormulaLint.Proofs.Reports

/-!
# Diagnostics in document order

Every phase reports its diagnostics at places of the text: lexing and parsing at tokens and at the
end, resolving at names and members, and judging queries at parts of the tree.  Places stand in the
order of offsets, so the diagnostics of a formula, which are sorted by offsets, follow each other in
the document.

Main results:

- Theorem {lit}`Derives.nameSpans`: names and members stand where their tokens do.
- Theorem {lit}`stands_of_analyze`: the diagnostics of all phases stand at places of the text.
- Theorem {lit}`sortDiagnostics_inOrder`: what is sorted by offsets is sorted by places.
- Theorem {lit}`places_keep_order`: places, their order, and the diagnostics of a formula.
-/

namespace FormulaLint

/-! ## Source ranges that stand in a text -/

/-- Whether a source range starts at an offset of a text, with the line and the column of this
offset. -/
def Span.Stands (index : LineIndex) (length : Nat) (span : Span) : Prop :=
  ∃ i : Nat, i ≤ length ∧ span.start = i ∧ span.IsAt index

/-- A source range stands where its first part does. -/
theorem Span.Stands.cover {index : LineIndex} {length : Nat} {span : Span}
    (h : span.Stands index length) (other : Span) : (span.cover other).Stands index length :=
  h

/-! ## Names and members -/

/-- What holds of the source ranges of a name and of its members.  Nothing is asked of any other
expression. -/
def Expr.NameSpans (P : Span → Prop) : Expr → Prop
  | .name _ identifierSpan members _ => P identifierSpan ∧ ∀ segment ∈ members, P segment.span
  | _ => True

/-- The trees of a phrase. -/
def Phrase.trees : Phrase → List Expr
  | .primary e | .member e | .suffixed e | .level _ e | .chain e => [e]
  | .clauses es | .arguments es | .elements es => es
  | .fields fs => fs.map Field.value

section

variable {P : Span → Prop} {e : Expr} {es : List Expr} {ts : List Token}

/-- Accessing a member adds the source range of the member. -/
theorem nameSpans_accessMember {segment : Segment} {nameSpan : Span}
    (h : e.Every (Expr.NameSpans P)) (hsegment : P segment.span) :
    (accessMember e segment nameSpan).Every (Expr.NameSpans P) := by
  rcases Expr.every_iff.mp h with ⟨hspans, hchildren⟩
  cases e with
  | name identifier identifierSpan segments span =>
      exact Expr.every_iff.mpr ⟨⟨hspans.1, forall_mem_snoc hspans.2 hsegment⟩, hchildren⟩
  | member base segments span => exact Expr.every_iff.mpr ⟨trivial, hchildren⟩
  | literal _ _ | call _ _ _ _ | record _ _ | table _ _ | unary _ _ _ | binary _ _ _ _ | chain _ _
  | hole =>
      exact Expr.every_iff.mpr ⟨trivial, fun c hc => List.mem_singleton.mp hc ▸ h⟩

/-- The chain of some clauses adds no name. -/
theorem nameSpans_chainTree (h : ∀ e ∈ es, e.Every (Expr.NameSpans P)) :
    (chainTree es ts).Every (Expr.NameSpans P) := by
  unfold chainTree
  split
  · exact h _ (List.mem_singleton_self _)
  · exact Expr.every_iff.mpr ⟨trivial, h⟩

/-- Names and members stand where their tokens do; what covers two tokens stands where the first one
does. -/
theorem Derives.nameSpans {phrase : Phrase} (h : Derives phrase ts)
    (hcover : ∀ first last : Span, P first → P (first.cover last)) (hts : ∀ t ∈ ts, P t.span) :
    ∀ e ∈ phrase.trees, e.Every (Expr.NameSpans P) := by
  induction h with
  | literal _ =>
      exact List.forall_mem_singleton.mpr
        (Expr.every_iff.mpr ⟨trivial, by simp [Expr.children]⟩)
  | name _ | global _ | field _ =>
      exact List.forall_mem_singleton.mpr
        (Expr.every_iff.mpr ⟨⟨hts _ (by simp), by simp⟩, by simp [reference, Expr.children]⟩)
  | call _ _ _ _ ih | record _ _ _ ih | table _ _ _ ih =>
      exact List.forall_mem_singleton.mpr
        (Expr.every_iff.mpr ⟨trivial, ih fun t ht => hts t (by simp [ht])⟩)
  | group _ _ _ ih => exact ih fun t ht => hts t (by simp [ht])
  | bare _ ih | unsuffixed _ ih | operand _ ih | looser _ ih | firstClause _ ih
  | firstArgument _ ih | firstElement _ ih => exact ih hts
  | access _ _ _ _ _ ih =>
      have he := ih (fun t ht => hts t (by simp [ht])) _ (List.mem_singleton_self _)
      exact List.forall_mem_singleton.mpr
        (nameSpans_accessMember he (hcover _ _ (hts _ (by simp))))
  | qualifiedCall _ _ _ _ _ _ _ _ ih =>
      exact List.forall_mem_singleton.mpr
        (Expr.every_iff.mpr ⟨trivial, ih fun t ht => hts t (by simp [ht])⟩)
  | percent _ _ ih | unary _ _ _ ih =>
      exact List.forall_mem_singleton.mpr
        (Expr.every_iff.mpr ⟨trivial, ih fun t ht => hts t (by simp [ht])⟩)
  | leftGrouped _ _ _ _ ihl ihr | rightGrouped _ _ _ _ ihl ihr | ungrouped _ _ _ _ ihl ihr =>
      refine List.forall_mem_singleton.mpr (Expr.every_iff.mpr ⟨trivial, ?_⟩)
      have hl := ihl (fun t ht => hts t (by simp [ht])) _ (List.mem_singleton_self _)
      have hr := ihr (fun t ht => hts t (by simp [ht])) _ (List.mem_singleton_self _)
      simpa [Expr.children] using ⟨hl, hr⟩
  | nextClause _ _ _ ihes ih | nextArgument _ _ _ _ ihes ih | nextElement _ _ _ _ ihes ih =>
      exact forall_mem_snoc (ihes fun t ht => hts t (by simp [ht]))
        (ih (fun t ht => hts t (by simp [ht])) _ (List.mem_singleton_self _))
  | chain _ ih => exact List.forall_mem_singleton.mpr (nameSpans_chainTree (ih hts))
  | trailedChain _ _ ih =>
      exact List.forall_mem_singleton.mpr
        (nameSpans_chainTree (ih fun t ht => hts t (by simp [ht])))
  | noArguments | noElements | noFields => exact List.forall_mem_nil _
  | firstField _ _ _ ih => exact ih fun t ht => hts t (by simp [ht])
  | nextField _ _ _ _ _ _ ihfs ih =>
      rw [Phrase.trees, List.map_append]
      exact forall_mem_snoc (ihfs fun t ht => hts t (by simp [ht]))
        (ih (fun t ht => hts t (by simp [ht])) _ (List.mem_singleton_self _))

/-- The names of recovered clauses stand where their tokens do. -/
theorem Recovers.nameSpans (h : Recovers ts es)
    (hcover : ∀ first last : Span, P first → P (first.cover last)) (hts : ∀ t ∈ ts, P t.span) :
    ∀ e ∈ es, e.Every (Expr.NameSpans P) := by
  induction h with
  | last _ hclause =>
      intro e he
      exact ((hclause e).mp (Option.mem_toList.mp he)).nameSpans hcover hts e
        (List.mem_singleton_self e)
  | @ended current more t clause es _ _ hclause _ ih =>
      have hsuffix := afterSeparator_suffix (openDelimiters current) (t :: more)
      intro e he
      rcases List.mem_append.mp he with he | he
      · exact ((hclause e).mp (Option.mem_toList.mp he)).1.nameSpans hcover
          (fun t' ht' => hts t' (List.mem_append_left _ ht')) e (List.mem_singleton_self e)
      · exact ih (fun t' ht' => hts t' (List.mem_append_right _ (hsuffix.subset ht'))) e he

end

/-! ## The diagnostics of each phase -/

/-- A warning about a name is found at the name or at one of its members. -/
theorem NameReference.Warns.span_mem {symbols : SymbolTable} {scope : Scope} {r : NameReference}
    {d : Diagnostic} (h : r.Warns symbols scope d) :
    d.span = r.span ∨ ∃ segment ∈ r.chain, d.span = segment.span := by
  cases h with
  | missingMember _ _ _ _ member _ _ =>
      exact Or.inr ⟨_, member ▸ List.mem_cons_self, rfl⟩
  | undefined | undeclared | missingField | missingDeclaredField | noSource | noControl
  | unavailable => exact Or.inl rfl

/-- A part that a path leads to has what every part has. -/
theorem Expr.Every.of_at? {Q : Expr → Prop} {e part : Expr} {path : Path} (h : e.Every Q)
    (hat : e.at? path = some part) : Q part :=
  h (path, part) (Expr.mem_walkFrom.mpr ⟨path, rfl, hat⟩)

/-- A unit of a query is the part at its path. -/
theorem CallSite.at?_of_mem_units {e : Expr} {site : CallSite} {u : QueryUnit}
    (hsite : site ∈ e.querySites) (hu : u ∈ site.units) : e.at? u.path = some u.part := by
  rcases List.mem_flatMap.mp hu with ⟨⟨c, i⟩, hc, hu⟩
  have harguments : site.expr.children[i]? = some c := List.mem_zipIdx_iff_getElem?.mp hc
  have hargument : e.at? (site.path ++ [i]) = some c := by
    rw [Expr.at?_append_of (Expr.mem_querySites_iff.mp hsite).1]
    exact Expr.at?_cons.mpr ⟨c, harguments, Expr.at?_nil c⟩
  cases hrole : site.role? i with
  | none => simp [hrole] at hu
  | some role =>
      simp only [hrole, Option.elim_some] at hu
      cases role with
      | condition =>
          rcases List.mem_map.mp hu with ⟨leaf, hleaf, rfl⟩
          rcases List.mem_map.mp hleaf with ⟨⟨rel, part⟩, hpart, rfl⟩
          rcases Expr.mem_walkFrom.mp (List.mem_filter.mp hpart).1 with ⟨rel, rfl, hrel⟩
          exact (Expr.at?_append_of hargument rel).trans hrel
      | field | column use =>
          obtain rfl := List.mem_singleton.mp hu
          exact hargument

section

variable {P : Span → Prop} {e : Expr} {d : Diagnostic}

/-- Warnings about names are found where the names and their members are. -/
theorem span_of_resolve (h : e.Every (Expr.NameSpans P)) {symbols : SymbolTable} {scope : Scope}
    (hd : d ∈ (resolve symbols scope e).diagnostics) : P d.span := by
  rw [resolve_diagnostics, (sortDiagnostics_perm _).mem_iff, List.mem_filterMap] at hd
  rcases hd with ⟨⟨path, r⟩, hname, hwarning⟩
  rcases Expr.mem_names.mp hname with ⟨span, hat⟩
  have hspans := h.of_at? hat
  rcases (NameReference.warns_iff.mp hwarning).span_mem with hspan | ⟨segment, hsegment, hspan⟩
  · exact hspan ▸ hspans.1
  · exact hspan ▸ hspans.2 segment hsegment

/-- Warnings about queries are found where the parts of the tree are. -/
theorem span_of_delegation (h : e.Every fun part => P part.span) {capabilities : CapabilityTable}
    {bindings : Bindings} (hd : d ∈ (delegation capabilities bindings e).diagnostics) :
    P d.span := by
  rw [(diagnostics_perm_refusedUnits capabilities bindings e).mem_iff] at hd
  rcases List.mem_map.mp hd with ⟨r, hr, rfl⟩
  rcases Expr.mem_refusedUnits.mp hr with ⟨hsite, hunit, -⟩
  exact h.of_at? (CallSite.at?_of_mem_units hsite hunit)

end

section

variable {p : Profile} {body : List Char} {place : Placement}

/-- Tokens stand at places of the text. -/
theorem stands_of_mem_lex {t : Token} (ht : t ∈ (lex p body place).tokens) :
    t.span.Stands (LineIndex.ofText body place) body.length := by
  have hbounds := (inRow_tokens p body place).within ht
  exact ⟨t.span.start.toNat, by omega, by omega, isAt_of_mem_lex ht⟩

/-- The end of a text is a place of it. -/
theorem stands_stop (p : Profile) (body : List Char) (place : Placement) :
    (lex p body place).stop.Stands (LineIndex.ofText body place) body.length :=
  ⟨body.length, le_refl _, rfl, rfl⟩

/-- What lexing and parsing report stands at places of the text, and so do the parts of what was
read, its names and their members. -/
theorem stands_of_parse {text : String} {placement : Placement} {parsed : Parsed}
    (hmarker : stripMarker text.toList placement = (body, place))
    (h : parse p text placement = .ok parsed) :
    let Stands := Span.Stands (LineIndex.ofText body place) body.length
    (∀ d ∈ parsed.diagnostics, Stands d.span) ∧
      parsed.expr.Every (Expr.NameSpans Stands) ∧
      parsed.expr.Every fun part => Stands part.span := by
  intro Stands
  rw [parse_eq hmarker] at h
  cases hread : readClauses ⟨p, (lex p body place).stop⟩ (lex p body place).tokens with
  | error n => simp [hread, Except.map] at h
  | ok progress =>
      rw [hread] at h
      obtain rfl := Except.ok.inj h
      dsimp only
      refine ⟨fun d hd => ?_, ?_, ?_⟩
      · rw [(sortDiagnostics_perm _).mem_iff, List.mem_append] at hd
        rcases hd with hlexical | hgrammatical
        · rcases List.mem_filterMap.mp hlexical with ⟨t, ht, hdiagnostic⟩
          rw [Token.span_of_diagnostic hdiagnostic]
          exact stands_of_mem_lex ht
        · have hamong := (readClauses_reports hread).sublist.subset
            (List.mem_map_of_mem hgrammatical)
          rcases List.mem_append.mp hamong with htoken | hend
          · rcases List.mem_map.mp htoken with ⟨t, ht, hspan⟩
            exact hspan ▸ stands_of_mem_lex (List.mem_of_mem_filter ht)
          · rw [List.mem_singleton.mp hend]
            exact stands_stop p body place
      · have hclauses := (recovers_of_readClauses hread).nameSpans (P := Stands)
          (fun first last hfirst => hfirst.cover last) fun t ht => stands_of_mem_lex ht
        unfold formulaExpr
        split
        · exact Expr.every_iff.mpr ⟨trivial, hclauses⟩
        · exact Expr.every_iff.mpr ⟨trivial, List.forall_mem_nil _⟩
      · rcases @inRow_first p body place _ rfl with ⟨hat, hstart, hle, hstop, hrow⟩
        have hclauses := (recovers_of_readClauses hread).lie (fun t ht => isAt_of_mem_lex ht) hrow
        have hexpr := (liesIn_formulaExpr hat hle hstop hclauses).mono hstart (Int.le_refl _)
        refine hexpr.placed.imp fun part hpart => ?_
        have hbounds := hpart.bounds
        exact ⟨part.span.start.toNat, by omega, by omega, hpart.place⟩

end

/-- The diagnostics of a formula are those of its phases, sorted. -/
theorem diagnostics_of_analyze {s : AnalysisSetting} {request : FormulaRequest} {a : Analysis}
    (h : analyze s request = .ok a) :
    parse s.profile request.text request.placement = .ok a.parsed ∧
      a.resolution = resolve s.symbols request.scope a.parsed.expr ∧
      a.delegation = FormulaLint.delegation s.capabilities a.resolution.bindings a.parsed.expr ∧
      a.diagnostics = sortDiagnostics
        (a.parsed.diagnostics ++ a.resolution.diagnostics ++ a.delegation.diagnostics) := by
  unfold analyze at h
  cases hparsed : parse s.profile request.text request.placement with
  | error number => simp [hparsed, bind, Except.bind] at h
  | ok parsed =>
      simp only [hparsed, bind, Except.bind, pure, Except.pure, Except.ok.injEq] at h
      subst h
      exact ⟨rfl, rfl, rfl, rfl⟩

/-- The diagnostics of all phases stand at places of the text behind the marker. -/
theorem stands_of_analyze {s : AnalysisSetting} {request : FormulaRequest} {a : Analysis}
    {body : List Char} {place : Placement} (h : analyze s request = .ok a)
    (hmarker : stripMarker request.text.toList request.placement = (body, place)) :
    ∀ d ∈ a.diagnostics, d.span.Stands (LineIndex.ofText body place) body.length := by
  rcases diagnostics_of_analyze h with ⟨hparsed, hresolution, hdelegation, hdiagnostics⟩
  rcases stands_of_parse hmarker hparsed with ⟨hreported, hnames, hparts⟩
  intro d hd
  rw [hdiagnostics, (sortDiagnostics_perm _).mem_iff, List.mem_append, List.mem_append] at hd
  rcases hd with (hd | hd) | hd
  · exact hreported d hd
  · exact span_of_resolve hnames (hresolution ▸ hd)
  · exact span_of_delegation hparts (hdelegation ▸ hd)

/-! ## The order of diagnostics -/

/-- The place of a diagnostic. -/
def Diagnostic.place (d : Diagnostic) : Place :=
  ⟨d.span.line, d.span.column⟩

/-- Whether diagnostics follow each other in the document: each one stands in front of a later one or
at the same place. -/
def InDocumentOrder (ds : List Diagnostic) : Prop :=
  ds.Pairwise fun a b => a.place.Before b.place ∨ a.place = b.place

/-- Diagnostics at places of a text follow each other when they are sorted by offsets. -/
theorem inDocumentOrder_of_stands {text : List Char} {placement : Placement} {ds : List Diagnostic}
    (hstands : ∀ d ∈ ds, d.span.Stands (LineIndex.ofText text placement) text.length)
    (hsorted : ds.Pairwise fun a b => a.before b = true) : InDocumentOrder ds := by
  refine hsorted.imp_of_mem ?_
  intro a b ha hb hab
  rcases hstands a ha with ⟨i, hi, histart, hiplace⟩
  rcases hstands b hb with ⟨j, hj, hjstart, hjplace⟩
  have hle : i ≤ j := by
    simp only [Diagnostic.before, Bool.or_eq_true, Bool.and_eq_true, decide_eq_true_eq] at hab
    omega
  rw [Span.IsAt, histart] at hiplace
  rw [Span.IsAt, hjstart] at hjplace
  rw [Diagnostic.place, Diagnostic.place, ← hiplace, ← hjplace]
  rcases Nat.lt_or_eq_of_le hle with hlt | rfl
  · exact Or.inl (LineIndex.before_place_of_lt hlt hj placement)
  · exact Or.inr rfl

/-- Sorting by offsets sorts by places. -/
theorem sortDiagnostics_inOrder {text : List Char} {placement : Placement} {ds : List Diagnostic}
    (h : ∀ d ∈ ds, d.span.Stands (LineIndex.ofText text placement) text.length) :
    InDocumentOrder (sortDiagnostics ds) := by
  have hstands : ∀ d ∈ sortDiagnostics ds,
      d.span.Stands (LineIndex.ofText text placement) text.length :=
    fun d hd => h d ((sortDiagnostics_perm ds).mem_iff.mp hd)
  exact inDocumentOrder_of_stands hstands (sortDiagnostics_pairwise ds)

/-- The places of a text are exact and keep the order of its offsets.  The line of an offset is the
first one with the number of line feeds in front of it; the column counts from the last of these, or
from the first column on the first line; and a search in the table of line starts finds both.  An
earlier offset has an earlier place, so diagnostics that are sorted by offsets are sorted by places.
This is so of the diagnostics of every formula: all of them stand at places of its text. -/
theorem places_keep_order (text : List Char) (placement : Placement) :
    let index := LineIndex.ofText text placement
    (∀ i : Nat, i ≤ text.length →
      (index.place i).line = placement.line + (text.take i).count '\n' ∧
      ((∀ m < i, text[m]? ≠ some '\n') → (index.place i).column = placement.column + i) ∧
      (∀ k < i, text[k]? = some '\n' → (∀ m, k < m → m < i → text[m]? ≠ some '\n') →
        (index.place i).column = placement.indent + 1 + (i - (k + 1) : Int)) ∧
      index.searchPlace i = index.place i) ∧
    (∀ i j : Nat, i < j → j ≤ text.length → (index.place i).Before (index.place j)) ∧
    (∀ ds : List Diagnostic, (∀ d ∈ ds, d.span.Stands index text.length) →
      InDocumentOrder (sortDiagnostics ds)) ∧
    ∀ (s : AnalysisSetting) (request : FormulaRequest) (a : Analysis),
      analyze s request = .ok a →
      stripMarker request.text.toList request.placement = (text, placement) →
      (∀ d ∈ a.diagnostics, d.span.Stands index text.length) ∧ InDocumentOrder a.diagnostics := by
  intro index
  refine ⟨fun i hi => ⟨LineIndex.line_place hi placement, fun hline => ?_, ?_, ?_⟩, ?_, ?_, ?_⟩
  · rw [LineIndex.place_of_first_line hi hline]
  · intro k hki hk hline
    rw [LineIndex.place_of_newline hki hi hk hline]
  · exact LineIndex.searchPlace_eq text placement i
  · intro i j hij hj
    exact LineIndex.before_place_of_lt hij hj placement
  · intro ds hds
    exact sortDiagnostics_inOrder hds
  · intro s request a hanalysed hmarker
    have hstands := stands_of_analyze hanalysed hmarker
    refine ⟨hstands, inDocumentOrder_of_stands hstands ?_⟩
    rw [(diagnostics_of_analyze hanalysed).2.2.2]
    exact sortDiagnostics_pairwise _

/-- A formula in an indented block, with an empty line and with a sign that is no token. -/
def indentedFormula : FormulaRequest :=
  ⟨⟨"app.yaml", "", "X"⟩, "=x\n\n  # + y", ⟨3, 9, 4⟩, {}⟩

/-- The sign stands on the third line of the formula behind the indentation, and the diagnostics
about it and about the names follow each other in the document. -/
theorem indentedFormula_in_order :
    let index := LineIndex.ofText "x\n\n  # + y".toList ⟨3, 10, 4⟩
    (index.place 5).line = 5 ∧ (index.place 5).column = 7 ∧ index.searchPlace 5 = index.place 5 ∧
      (index.place 2).Before (index.place 5) ∧
      ∃ a, analyze bareSetting indentedFormula = .ok a ∧ InDocumentOrder a.diagnostics := by
  intro index
  rcases places_keep_order "x\n\n  # + y".toList ⟨3, 10, 4⟩ with ⟨hplaces, horder, -, hanalyses⟩
  rcases hplaces 5 (by decide) with ⟨hline, -, hcolumn, hsearch⟩
  have hblank : ∀ m < 5, 2 < m → "x\n\n  # + y".toList[m]? ≠ some '\n' := by decide
  have hindented := hcolumn 2 (by decide) (by decide) fun m hkm hm => hblank m hm hkm
  have hends : ∃ a, analyze bareSetting indentedFormula = .ok a := exists_analysis (by decide)
  rcases hends with ⟨a, hanalysed⟩
  exact ⟨hline, hindented, hsearch, horder 2 5 (by decide) (by decide), a, hanalysed,
    (hanalyses bareSetting indentedFormula a hanalysed (by decide)).2⟩

end FormulaLint
