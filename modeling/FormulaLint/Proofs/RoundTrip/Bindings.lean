import FormulaLint.Proofs.Binding.Forms
import FormulaLint.Proofs.RoundTrip.Formula

/-!
# References keep their meanings

What is written for a formula is read back as a formula of the same form, except for names that
their texts do not tell: a quoted name that is spelled like a keyword for the current record or
control is read back as the keyword, and a field of a source without a name as a global name.
Where a formula has no such name, every reference of it is bound as before, whatever is declared.

Main results:

- Theorem {lit}`parse_unparse_bare`: the form of a formula that is read back.
- Theorem {lit}`unparse_keeps_bindings`: what the references of a formula that is read back are bound
  to.
-/

namespace FormulaLint

/-- A formula that is read without a diagnostic can be written in any profile and read back there
without a diagnostic, as a formula of the form that its texts tell. -/
theorem parse_unparse_bare {p p' : Profile} {text : String} {placement placement' : Placement}
    {parsed : Parsed} (h : parse p text placement = .ok parsed) (hclean : parsed.diagnostics = [])
    (hnumbers : parsed.expr.Every Expr.NumberKept)
    (hqualified : parsed.expr.Every Expr.PlainlyQualified) :
    ∃ written parsed', parsed.expr.unparse p' = .ok written ∧
      parse p' written placement' = .ok parsed' ∧ parsed'.diagnostics = [] ∧
      parsed'.expr.bare = parsed.expr.reread := by
  rcases parse_shaped h hclean with ⟨⟨span, hexpr⟩, hshaped⟩
  rw [hexpr] at hnumbers hqualified ⊢
  have hwritten : ∀ e ∈ parsed.clauses, Written p' e := by
    intro e he
    have hkept := (Expr.every_iff.mp hnumbers).2 e he
    have hplainly := (Expr.every_iff.mp hqualified).2 e he
    exact written_of_rereadable (((hshaped e he).and (hkept.and hplainly)).imp fun part hpart =>
      ⟨hpart.1, hpart.2.1, hpart.2.2⟩)
  rcases writes_formula hwritten with ⟨hwrites, hmarker⟩
  rcases parse_of_writes hwrites hmarker placement' with ⟨parsed', hparse, hclean', hspelled⟩
  refine ⟨_, parsed', unparse_chain hshaped span, hparse, hclean', ?_⟩
  rcases parse_shaped hparse hclean' with ⟨⟨span', hexpr'⟩, -⟩
  rw [hexpr', Expr.bare, Expr.reread, Expr.form_chain, Expr.form_chain]
  exact congrArg (Expr.chain · default) hspelled.bares_eq

/-- A formula that is read without a diagnostic in one profile can be written in any profile and
read back there without a diagnostic.  Whatever is declared, its references are then bound, one by
one in walking order, as in the formula with the names that their texts tell, and so as before if
these are its own names.  Numbers must still have values when they are written without bare points,
and no function name may start with a qualifier that stands for the current record or control. -/
theorem unparse_keeps_bindings (p p' : Profile) (text : String) (placement placement' : Placement)
    (parsed : Parsed) (h : parse p text placement = .ok parsed) (hclean : parsed.diagnostics = [])
    (hnumbers : parsed.expr.Every Expr.NumberKept)
    (hqualified : parsed.expr.Every Expr.PlainlyQualified) :
    ∃ written parsed', parsed.expr.unparse p' = .ok written ∧
      parse p' written placement' = .ok parsed' ∧ parsed'.diagnostics = [] ∧
      (∀ symbols scope, parsed'.expr.referenceBindings symbols scope =
        parsed.expr.reread.referenceBindings symbols scope) ∧
      (parsed.expr.Every Expr.PlainlyNamed → ∀ symbols scope,
        parsed'.expr.referenceBindings symbols scope = parsed.expr.referenceBindings symbols scope) := by
  rcases parse_unparse_bare h hclean hnumbers hqualified
    with ⟨written, parsed', hwritten, hparse, hclean', hbare⟩
  have hmeanings : ∀ symbols scope, parsed'.expr.meanings symbols scope =
      parsed.expr.reread.meanings symbols scope := fun symbols scope => by
    rw [← parsed'.expr.meanings_bare, hbare]
  refine ⟨written, parsed', hwritten, hparse, hclean', fun symbols scope => ?_,
    fun hnamed symbols scope => ?_⟩
  · rw [Expr.referenceBindings_eq, Expr.referenceBindings_eq, hmeanings]
  · rw [Expr.referenceBindings_eq, Expr.referenceBindings_eq, hmeanings, Expr.reread_eq_bare hnamed,
      parsed.expr.meanings_bare]

/-- A formula with a record scope, a member of a quoted name, a field of a source, a global name, a
keyword for the current record and members of a chain. -/
theorem unparse_keeps_bindings_mixed :
    let text := "=Filter(Orders, Status = ThisRecord.'a b' && [@x] > Orders[@Total]); (y; z).n"
    ∃ parsed, parse .dotDecimal text {} = .ok parsed ∧ parsed.diagnostics = [] ∧
      parsed.expr.Every Expr.NumberKept ∧ parsed.expr.Every Expr.PlainlyQualified ∧
      parsed.expr.Every Expr.PlainlyNamed ∧
      ∃ written parsed', parsed.expr.unparse .dotDecimal = .ok written ∧
        parse .dotDecimal written {} = .ok parsed' ∧ parsed'.diagnostics = [] ∧
        (∀ symbols scope, parsed'.expr.referenceBindings symbols scope =
          parsed.expr.reread.referenceBindings symbols scope) ∧
        (parsed.expr.Every Expr.PlainlyNamed → ∀ symbols scope,
          parsed'.expr.referenceBindings symbols scope = parsed.expr.referenceBindings symbols scope) := by
  intro text
  rcases exists_parse_of_decide .dotDecimal text {} (fun parsed => parsed.diagnostics = [] ∧
    parsed.expr.Every Expr.NumberKept ∧ parsed.expr.Every Expr.PlainlyQualified ∧
    parsed.expr.Every Expr.PlainlyNamed) (by decide +kernel)
    with ⟨parsed, hparse, hclean, hnumbers, hqualified, hnamed⟩
  exact ⟨parsed, hparse, hclean, hnumbers, hqualified, hnamed,
    unparse_keeps_bindings .dotDecimal .dotDecimal text {} {} parsed hparse hclean hnumbers
      hqualified⟩

/-- A quoted name that is spelled like the keyword for the current item is written without quotes
and read back as the keyword: a declared variable is lost. -/
theorem unparse_rebinds_quoted_keyword :
    let symbols : SymbolTable := ⟨⟨[("ThisItem", .globalVariable)]⟩, .empty⟩
    ∃ parsed parsed', parse .dotDecimal "'ThisItem'" {} = .ok parsed ∧ parsed.diagnostics = [] ∧
      parsed.expr.unparse .dotDecimal = .ok "ThisItem" ∧
      parse .dotDecimal "ThisItem" {} = .ok parsed' ∧
      parsed.expr.referenceBindings symbols {} =
        [some ⟨.globalVariable, "ThisItem", none, none, none⟩] ∧
      parsed'.expr.referenceBindings symbols {} =
        [some ⟨.contextKeyword, "ThisItem", none, none, none⟩] := by
  intro symbols
  rcases exists_parse_of_decide .dotDecimal "'ThisItem'" {} (fun parsed => parsed.diagnostics = [] ∧
    parsed.expr.unparse .dotDecimal = .ok "ThisItem" ∧ parsed.expr.referenceBindings symbols {} =
      [some ⟨.globalVariable, "ThisItem", none, none, none⟩]) (by decide +kernel)
    with ⟨parsed, hparse, hclean, hwritten, hbindings⟩
  rcases exists_parse_of_decide .dotDecimal "ThisItem" {} (fun parsed =>
    parsed.expr.referenceBindings symbols {} = [some ⟨.contextKeyword, "ThisItem", none, none, none⟩])
    (by decide +kernel) with ⟨parsed', hparse', hbindings'⟩
  exact ⟨parsed, parsed', hparse, hclean, hwritten, hparse', hbindings, hbindings'⟩

end FormulaLint
