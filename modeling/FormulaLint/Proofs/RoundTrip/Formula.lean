import FormulaLint.Proofs.Grammar.Acceptance
import FormulaLint.Proofs.Lexing.Coverage
import FormulaLint.Proofs.RoundTrip.Expressions

/-!
# Formulas are read back

A formula that is read without a diagnostic is a series of clauses, and its clauses have the shape
of the grammar.  What is written for them in any profile is lexed without an error, read as a series
of clauses that spell the first ones, and written the same way again.

Main results:

- Theorem {lit}`parse_shaped`: the clauses of a formula that is read without a diagnostic.
- Theorem {lit}`parse_of_writes`: what is written for a series of clauses is read as one.
- Theorem {lit}`parse_unparse_across_profiles`: formulas are read back in every profile.
-/

namespace FormulaLint

variable {p : Profile} {text : List Char} {Made : List Token → Prop}

/-! ## Formulas without diagnostics -/

/-- The expression of a formula is the chain of its clauses. -/
theorem formulaExpr_eq (clauses : List Expr) (start : Span) :
    ∃ span, formulaExpr clauses start = .chain clauses span := by
  unfold formulaExpr
  split
  · exact ⟨_, rfl⟩
  · rename_i hlast
    rw [List.getLast?_eq_none_iff.mp hlast]
    exact ⟨_, rfl⟩

/-- Nothing is sorted only of nothing. -/
theorem eq_nil_of_sortDiagnostics {ds : List Diagnostic} (h : sortDiagnostics ds = []) :
    ds = [] := by
  have hperm := sortDiagnostics_perm ds
  rw [h] at hperm
  exact hperm.symm.eq_nil

/-- A formula is read clause by clause from the tokens behind its marker. -/
theorem parse_eq {text : String} {placement place : Placement} {body : List Char}
    (h : stripMarker text.toList placement = (body, place)) :
    parse p text placement =
      (readClauses ⟨p, (lex p body place).stop⟩ (lex p body place).tokens).map fun progress =>
        ⟨progress.clauses,
          formulaExpr progress.clauses
            (((lex p body place).tokens.head?.map Token.span).getD (lex p body place).stop),
          lex p body place,
          sortDiagnostics ((lex p body place).diagnostics ++ progress.diagnostics)⟩ := by
  unfold parse
  rw [h]
  dsimp only [bind, pure, Except.pure]
  cases readClauses ⟨p, (lex p body place).stop⟩ (lex p body place).tokens <;> rfl

/-- A formula that is read without a diagnostic is a chain of clauses that have the shape of the
grammar. -/
theorem parse_shaped {text : String} {placement : Placement} {parsed : Parsed}
    (h : parse p text placement = .ok parsed) (hclean : parsed.diagnostics = []) :
    (∃ span, parsed.expr = .chain parsed.clauses span) ∧
      ∀ e ∈ parsed.clauses, e.Every Expr.Shaped := by
  rcases hmarker : stripMarker text.toList placement with ⟨body, place⟩
  rw [parse_eq hmarker] at h
  cases hread : readClauses ⟨p, (lex p body place).stop⟩ (lex p body place).tokens with
  | error n => simp [hread, Except.map] at h
  | ok progress =>
      rw [hread] at h
      have hparsed := Except.ok.inj h
      subst hparsed
      have hnil := eq_nil_of_sortDiagnostics hclean
      rcases List.append_eq_nil_iff.mp hnil with ⟨hlexical, hsyntactic⟩
      have hseries := readClauses_series hread (isError_of_diagnostics hlexical) hsyntactic
      refine ⟨formulaExpr_eq progress.clauses _, hseries.shaped fun t ht number hnumber => ?_⟩
      exact numeral_of_mem_lex ht hnumber

/-- A formula is read if something can be decided of what is read. -/
theorem exists_parse_of_decide (p : Profile) (text : String) (placement : Placement)
    (P : Parsed → Prop) [DecidablePred P]
    (h : (parse p text placement).toOption.any (fun parsed => decide (P parsed)) = true) :
    ∃ parsed, parse p text placement = .ok parsed ∧ P parsed := by
  cases hparse : parse p text placement with
  | error n => simp [hparse, Except.toOption] at h
  | ok parsed => exact ⟨parsed, rfl, by simpa [hparse, Except.toOption] using h⟩

/-! ## Written formulas -/

/-- Pieces that are all tokens have these tokens. -/
theorem map_payload_filterMap_token {found : List Piece} {payloads : List Payload}
    (h : found.map Piece.item = payloads.map Item.token) :
    (found.filterMap Piece.token?).map Token.payload = payloads := by
  induction found generalizing payloads with
  | nil =>
      have hnil : payloads = [] := List.map_eq_nil_iff.mp h.symm
      rw [hnil]
      rfl
  | cons piece found ih =>
      cases payloads with
      | nil => simp at h
      | cons payload payloads =>
          rcases List.cons.inj h with ⟨hitem, hrest⟩
          have htoken : piece.token? = some ⟨payload, piece.lexeme, piece.span⟩ := by
            simp only [Piece.token?, hitem]
          rw [List.filterMap_cons_some htoken, List.map_cons, ih hrest]

/-- What is written is lexed, without an error, as the tokens that make it up. -/
theorem Writes.lex (h : Writes p (Delimits p) text Made) (placement : Placement) :
    Made (lex p text placement).tokens ∧ (lex p text placement).diagnostics = [] := by
  rcases h with ⟨payloads, hlexes, hmade⟩
  have hitems := hlexes.items_eq none [] (fun _ => rfl) delimits_none
  rw [List.append_nil, items_nil, List.append_nil, items] at hitems
  have hpayloads : (FormulaLint.lex p text placement).tokens.map Token.payload = payloads := by
    apply map_payload_filterMap_token
    rw [← hitems]
    exact map_item_pieces _ _ _ _ _ _
  refine ⟨hmade _ hpayloads, List.filterMap_eq_nil_iff.mpr fun t ht => ?_⟩
  have hclean := hlexes.clean t.payload (hpayloads ▸ List.mem_map_of_mem ht)
  unfold Token.diagnostic?
  split
  · rename_i error hpayload
    simp [hpayload, Payload.isError] at hclean
  · rfl

/-- One more clause behind a series. -/
theorem Series.snoc {es : List Expr} {ts ts' : List Token} {t : Token} {e : Expr}
    (h : Series ts es) (ht : t.Chains) (he : Derives (.level 0 e) ts') :
    Series (ts ++ t :: ts') (es ++ [e]) := by
  induction h with
  | nil => exact .separator ht (.last he)
  | separator hseparator _ ih => exact .separator hseparator ih
  | last hlast => exact .clause hlast ht (.last he)
  | clause hclause hseparator _ ih =>
      have hall := Series.clause hclause hseparator ih
      simpa using hall

/-- The clauses of a chain are a series of clauses. -/
theorem Derives.series {es : List Expr} {ts : List Token} (h : Derives (.clauses es) ts) :
    Series ts es := by
  induction h using Derives.clauses_induct with
  | first he => exact .last he
  | next _ ht he ih => exact ih.snoc ht he

/-- No clause starts with an equals sign. -/
theorem Derives.head_ne_equal {e : Expr} {ts : List Token} (h : Derives (.level 0 e) ts) :
    ∃ t rest, ts = t :: rest ∧ t.payload ≠ .operator .equal := by
  rcases h.runs_clause (s := ⟨.dotDecimal, default⟩) with ⟨w, hruns, hend, -⟩
  cases hruns with
  | nil => simp [Work.step, Work.start, startOperand] at hend
  | @cons _ _ _ t rest hstep _ =>
      refine ⟨t, rest, rfl, fun ht => ?_⟩
      simp [Work.step, Work.start, startOperand, ht, Operator.isPrefix] at hstep

/-- Chained expressions do not start with an equals sign. -/
theorem Derives.clauses_head_ne_equal {es : List Expr} {ts : List Token}
    (h : Derives (.clauses es) ts) : ∃ t rest, ts = t :: rest ∧ t.payload ≠ .operator .equal := by
  induction h using Derives.clauses_induct with
  | first he => exact he.head_ne_equal
  | next _ _ _ ih =>
      rcases ih with ⟨t, rest, rfl, ht⟩
      exact ⟨t, _, rfl, ht⟩

/-- What is written for chained expressions has no marker of a formula in front. -/
theorem Writes.head_ne_equal (h : Writes p (Delimits p) text Made)
    (hmade : ∀ ts, Made ts → ∃ t rest, ts = t :: rest ∧ t.payload ≠ .operator .equal) :
    text.head? ≠ some '=' := by
  rcases h with ⟨payloads, hlexes, hread⟩
  intro hhead
  rcases List.head?_eq_some_iff.mp hhead with ⟨rest, rfl⟩
  rcases hlexes.head_item delimits_none (by decide) with ⟨delimited, hitem⟩
  have hfound : (recognise p '=' rest).item = .token (.operator .equal) := by
    rw [recognise_symbol (by cases rest <;> rfl)]
    rfl
  rw [hfound] at hitem
  have hpayload : payloads.head? = some (.operator .equal) := by
    rcases Option.map_eq_some_iff.mp hitem with ⟨payload, hpayload, heq⟩
    rw [hpayload, Item.token.inj heq]
  -- any tokens with these payloads will do
  have hmap : (payloads.map fun payload => (⟨payload, "", default⟩ : Token)).map Token.payload =
      payloads := by
    rw [List.map_map]
    exact List.map_id payloads
  rcases hmade _ (hread _ hmap) with ⟨t, more, htokens, ht⟩
  rw [htokens] at hmap
  rw [← hmap] at hpayload
  exact ht (by simpa using hpayload)

/-- What is written for a series of clauses is read without a diagnostic as such a series. -/
theorem parse_of_writes {Good : List Expr → Prop}
    (h : Writes p (Delimits p) text fun ts => ∃ es, Good es ∧ Series ts es)
    (hmarker : text.head? ≠ some '=') (placement : Placement) :
    ∃ parsed, parse p (String.ofList text) placement = .ok parsed ∧ parsed.diagnostics = [] ∧
      Good parsed.clauses := by
  have hstrip : stripMarker (String.ofList text).toList placement = (text, placement) := by
    rw [String.toList_ofList]
    unfold stripMarker
    split
    · simp at hmarker
    · rfl
  rcases h.lex placement with ⟨⟨es, hgood, hseries⟩, hlexical⟩
  have hread : readClauses ⟨p, (lex p text placement).stop⟩ (lex p text placement).tokens =
      .ok ⟨es, [], .between⟩ := hseries.feedAll [] []
  refine ⟨_, by rw [parse_eq hstrip, hread]; rfl, ?_, hgood⟩
  simp only [hlexical]
  exact (sortDiagnostics_perm []).eq_nil

/-! ## Chains of shaped clauses -/

/-- The text of a chain whose clauses have the shape of the grammar. -/
theorem unparse_chain {clauses : List Expr} (h : ∀ e ∈ clauses, e.Every Expr.Shaped) (span : Span) :
    (Expr.chain clauses span).unparse p = .ok (String.ofList
      ((chainGap p).intercalate (clauses.map fun e => (e.render p).text))) := by
  rw [Expr.unparse_eq_ok, Expr.render_chain_text]
  refine Expr.every_iff.mpr ⟨rfl, fun e he => (h e he).imp fun part hpart => hpart.renderError?⟩

/-- The canonical form of a chain whose clauses have the shape of the grammar. -/
theorem dump_chain {clauses : List Expr} (h : ∀ e ∈ clauses, e.Every Expr.Shaped) (span : Span) :
    (Expr.chain clauses span).dump = .ok (String.ofList
      ([';', ' '].intercalate (clauses.map Expr.dumpChars))) := by
  rw [Expr.dump_eq_ok, Expr.dumpChars_chain]
  refine Expr.every_iff.mpr ⟨rfl, fun e he => (h e he).imp fun part hpart => hpart.dumpError?⟩

/-- The text of a formula is written for clauses that spell its own. -/
theorem writes_formula {clauses : List Expr} (h : ∀ e ∈ clauses, Written p e) :
    (Writes p (Delimits p)
      ((chainGap p).intercalate (clauses.map fun e => (e.render p).text))
      fun ts => ∃ es, Expr.Spelled p clauses es ∧ Series ts es) ∧
    ((chainGap p).intercalate (clauses.map fun e => (e.render p).text)).head? ≠ some '=' := by
  by_cases hnil : clauses = []
  · subst hnil
    refine ⟨Writes.nil.imp ?_, by simp⟩
    rintro ts rfl
    exact ⟨[], ⟨by simp, rfl, rfl, rfl⟩, .nil⟩
  · have hwrites := writes_clauses hnil h
    refine ⟨hwrites.imp ?_, hwrites.head_ne_equal ?_⟩
    · intro ts hts
      rcases hts with ⟨es, hspelled, hread⟩
      exact ⟨es, hspelled, hread.series⟩
    · intro ts hts
      rcases hts with ⟨es, -, hread⟩
      exact hread.clauses_head_ne_equal

/-! ## Round trips -/

/-- A formula that is read without a diagnostic in one profile can be written in any profile and
read back there without a diagnostic: it keeps its canonical form, and it is written the same way
again.  No number may have more digits in front of its point than a whole number can have, and no
function name may start with a qualifier that stands for the current record or control. -/
theorem parse_unparse_across_profiles (p p' : Profile) (text : String)
    (placement placement' : Placement) (parsed : Parsed)
    (h : parse p text placement = .ok parsed) (hclean : parsed.diagnostics = [])
    (hdigits : parsed.expr.Every Expr.DigitsBounded)
    (hqualified : parsed.expr.Every Expr.PlainlyQualified) :
    ∃ written canonical parsed', parsed.expr.unparse p' = .ok written ∧
      parsed.expr.dump = .ok canonical ∧ parse p' written placement' = .ok parsed' ∧
      parsed'.diagnostics = [] ∧ parsed'.expr.dump = .ok canonical ∧
      parsed'.expr.unparse p' = .ok written := by
  rcases parse_shaped h hclean with ⟨⟨span, hexpr⟩, hshaped⟩
  rw [hexpr] at hdigits hqualified ⊢
  have hwritten : ∀ e ∈ parsed.clauses, Written p' e := by
    intro e he
    apply written_of_writable
    have hbounded := (Expr.every_iff.mp hdigits).2 e he
    have hplainly := (Expr.every_iff.mp hqualified).2 e he
    exact ((hshaped e he).and (hbounded.and hplainly)).imp fun part hpart =>
      ⟨hpart.1, hpart.2.1, hpart.2.2⟩
  rcases writes_formula hwritten with ⟨hwrites, hmarker⟩
  rcases parse_of_writes hwrites hmarker placement' with ⟨parsed', hparse, hclean', hspelled⟩
  rcases parse_shaped hparse hclean' with ⟨⟨span', hexpr'⟩, hshaped'⟩
  refine ⟨_, _, parsed', unparse_chain hshaped span, dump_chain hshaped span, hparse, hclean',
    ?_, ?_⟩
  · rw [hexpr', dump_chain hshaped', hspelled.dumps_eq]
  · rw [hexpr', unparse_chain hshaped', hspelled.texts_eq]

/-- A formula with points to be dropped and added, a chain inside a chain, a word for an operator,
a qualified call and a quoted name, from one profile to the other. -/
theorem parse_unparse_mixed :
    let text := "=If(Not (Total% > 1.), (-.5e3; x.'a b'); y); Ns.f({n: [2, Not z]}) ^ 2"
    ∃ parsed, parse .dotDecimal text {} = .ok parsed ∧ parsed.diagnostics = [] ∧
      parsed.expr.Every Expr.DigitsBounded ∧ parsed.expr.Every Expr.PlainlyQualified ∧
      ∃ written canonical parsed', parsed.expr.unparse .commaDecimal = .ok written ∧
        parsed.expr.dump = .ok canonical ∧ parse .commaDecimal written {} = .ok parsed' ∧
        parsed'.diagnostics = [] ∧ parsed'.expr.dump = .ok canonical ∧
        parsed'.expr.unparse .commaDecimal = .ok written := by
  intro text
  have hevaluated : (match parse .dotDecimal text {} with
      | .ok parsed => decide (parsed.diagnostics = [] ∧ parsed.expr.Every Expr.DigitsBounded ∧
          parsed.expr.Every Expr.PlainlyQualified)
      | .error _ => false) = true := by decide +kernel
  cases hparse : parse .dotDecimal text {} with
  | error n => simp [hparse] at hevaluated
  | ok parsed =>
      simp only [hparse, decide_eq_true_eq] at hevaluated
      rcases hevaluated with ⟨hclean, hdigits, hqualified⟩
      exact ⟨parsed, rfl, hclean, hdigits, hqualified,
        parse_unparse_across_profiles .dotDecimal .commaDecimal text {} {} parsed hparse hclean
          hdigits hqualified⟩

end FormulaLint
