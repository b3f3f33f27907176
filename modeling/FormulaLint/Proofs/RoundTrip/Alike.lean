import FormulaLint.Proofs.Forms.Form
import FormulaLint.Proofs.Grammar.Shape

/-!
# Expressions that are written alike

Two expressions are written alike in a profile when they have the same canonical form and the same
text there, and are of the same kind where the grammar asks for the kind.  Places do not matter,
and neither does a nested chain whose clauses are clauses of the outer one.  The second one is what
the first one is read back as, so that its names are those that the texts of names are read as.
Putting expressions together keeps this.

Main results:

- Theorem {lit}`Expr.Alike.binary` and its companions: expressions put together from like parts.
- Theorem {lit}`Expr.Spelled.append`: chained expressions that are spelled by more clauses.
-/

namespace FormulaLint

namespace Expr

/-- Two expressions have the same canonical form, the same text, and are of the same kind. -/
structure Alike (p : Profile) (e e' : Expr) : Prop where
  dump_eq : e'.dumpChars = e.dumpChars
  render_eq : e'.render p = e.render p
  isLiteral_eq : e'.isLiteral = e.isLiteral
  isReference_eq : e'.isReference = e.isReference
  bare_eq : e'.bare = e.reread

/-- Two lists of expressions have the same canonical forms and the same texts. -/
structure AllAlike (p : Profile) (es es' : List Expr) : Prop where
  dumps_eq : es'.map dumpChars = es.map dumpChars
  renders_eq : es'.map (render p) = es.map (render p)
  bares_eq : es'.map bare = es.map reread

/-- Two lists of fields have the same canonical forms and the same texts. -/
structure FieldsAlike (p : Profile) (fields fields' : List Field) : Prop where
  dumps_eq : dumpFields fields' = dumpFields fields
  renders_eq : renderFields p fields' = renderFields p fields
  bares_eq : formFields id withMembers fields' = formFields Identifier.reread withMembers fields

/-- The clauses of a chain spell some expressions, which may be chains of clauses themselves. -/
structure Spelled (p : Profile) (es clauses : List Expr) : Prop where
  length_le : es.length ≤ clauses.length
  dumps_eq : [';', ' '].intercalate (clauses.map dumpChars) =
    [';', ' '].intercalate (es.map dumpChars)
  texts_eq : (chainGap p).intercalate (clauses.map fun e => (e.render p).text) =
    (chainGap p).intercalate (es.map fun e => (e.render p).text)
  bares_eq : clauses.flatMap (fun e => e.bare.clauses) = es.flatMap fun e => e.reread.clauses

end Expr

/-- The separators and names of a chain of members. -/
def memberKeys (chain : List Segment) : List (Operator × String) :=
  chain.map fun segment => (segment.separator, segment.name)

/-- A chain is written from its separators and names. -/
theorem chainText_eq (chain : List Segment) :
    chainText chain =
      (memberKeys chain).flatMap fun key => key.1.spelling.toList ++ nameText key.2 := by
  rw [memberKeys, List.flatMap_map]
  rfl

/-- Chains with the same separators and names are empty together. -/
theorem isEmpty_eq_of_memberKeys {chain chain' : List Segment}
    (h : memberKeys chain' = memberKeys chain) : chain'.isEmpty = chain.isEmpty := by
  have hlength := congrArg List.length h
  simp only [memberKeys, List.length_map] at hlength
  cases chain <;> cases chain' <;> simp_all

/-- The form of a chain depends on its separators and names. -/
theorem map_form_of_memberKeys {chain chain' : List Segment}
    (h : memberKeys chain' = memberKeys chain) :
    chain'.map Segment.form = chain.map Segment.form := by
  have hforms : ∀ segments : List Segment, segments.map Segment.form =
      (memberKeys segments).map fun key => ⟨key.1, key.2, default⟩ := by
    intro segments
    rw [memberKeys, List.map_map]
    rfl
  rw [hforms, hforms, h]

/-- What is rendered of a chain depends on its separators and names. -/
theorem renderChain_eq_of_memberKeys {chain chain' : List Segment}
    (h : memberKeys chain' = memberKeys chain) (base : List Char) :
    renderChain base chain' = renderChain base chain := by
  rw [renderChain, renderChain, isEmpty_eq_of_memberKeys h, chainText_eq, chainText_eq, h]

namespace Expr

variable {p : Profile} {e e' l l' r r' : Expr} {es es' : List Expr} {span span' : Span}

/-! ## Lists of expressions -/

/-- Lists of like expressions get longer together. -/
theorem AllAlike.snoc (hes : AllAlike p es es') (he : Alike p e e') :
    AllAlike p (es ++ [e]) (es' ++ [e']) where
  dumps_eq := by
    rw [List.map_append, List.map_append, hes.dumps_eq, List.map_singleton, List.map_singleton,
      he.dump_eq]
  renders_eq := by
    rw [List.map_append, List.map_append, hes.renders_eq, List.map_singleton, List.map_singleton,
      he.render_eq]
  bares_eq := by
    rw [List.map_append, List.map_append, hes.bares_eq, List.map_singleton, List.map_singleton,
      he.bare_eq]

/-- A list of one expression. -/
theorem Alike.all (h : Alike p e e') : AllAlike p [e] [e'] where
  dumps_eq := by rw [List.map_singleton, List.map_singleton, h.dump_eq]
  renders_eq := by rw [List.map_singleton, List.map_singleton, h.render_eq]
  bares_eq := by rw [List.map_singleton, List.map_singleton, h.bare_eq]

/-- A list that is like one with expressions in it has expressions in it. -/
theorem AllAlike.ne_nil (h : AllAlike p es es') (hne : es ≠ []) : es' ≠ [] := by
  rintro rfl
  have hnil : es.map dumpChars = [] := h.dumps_eq.symm
  exact hne (List.map_eq_nil_iff.mp hnil)

/-- Lists of like fields get longer together. -/
theorem FieldsAlike.snoc {fields fields' : List Field} {name : String}
    (hfields : FieldsAlike p fields fields') (he : Alike p e e') :
    FieldsAlike p (fields ++ [.mk name e span]) (fields' ++ [.mk name e' span']) where
  dumps_eq := by
    have hdumps := hfields.dumps_eq
    simp only [dumpFields_eq_map] at hdumps ⊢
    rw [List.map_append, List.map_append, hdumps]
    exact congrArg (fun cs => _ ++ [nameText name ++ ':' :: ' ' :: cs]) he.dump_eq
  renders_eq := by
    have hrenders := hfields.renders_eq
    simp only [renderFields_eq_map] at hrenders ⊢
    rw [List.map_append, List.map_append, hrenders]
    exact congrArg (fun r => _ ++ [nameText name ++ ':' :: ' ' :: r.unchained]) he.render_eq
  bares_eq := by
    have hbares := hfields.bares_eq
    simp only [formFields_eq_map] at hbares ⊢
    rw [List.map_append, List.map_append, hbares]
    exact congrArg (fun value => _ ++ [Field.mk name value default]) he.bare_eq

/-- A list that is like one with fields in it has fields in it. -/
theorem FieldsAlike.ne_nil {fields fields' : List Field} (h : FieldsAlike p fields fields')
    (hne : fields ≠ []) : fields' ≠ [] := by
  rintro rfl
  have hnil : dumpFields fields = [] := h.dumps_eq.symm
  rw [dumpFields_eq_map] at hnil
  exact hne (List.map_eq_nil_iff.mp hnil)

/-! ## Chains of clauses -/

/-- A list of texts with another one behind it. -/
theorem intercalate_append {gap : List Char} {texts texts' : List (List Char)} (hne : texts ≠ [])
    (hne' : texts' ≠ []) :
    gap.intercalate (texts ++ texts') = gap.intercalate texts ++ gap ++ gap.intercalate texts' := by
  induction texts with
  | nil => exact absurd rfl hne
  | cons text texts ih =>
      by_cases hlast : texts = []
      · rw [hlast, List.singleton_append, List.intercalate_cons_of_ne_nil hne',
          List.intercalate_singleton]
      · rw [List.cons_append, List.intercalate_cons_of_ne_nil (by simp [hlast]), ih hlast,
          List.intercalate_cons_of_ne_nil hlast]
        simp only [List.append_assoc]

/-- Clauses that spell expressions, one list behind the other. -/
theorem Spelled.append {more clauses clauses' : List Expr} (hes : Spelled p es clauses)
    (hmore : Spelled p more clauses') (hne : es ≠ []) (hne' : more ≠ []) :
    Spelled p (es ++ more) (clauses ++ clauses') := by
  have hclauses : clauses ≠ [] := by
    intro hnil
    have hle := hes.length_le
    simp [hnil, hne] at hle
  have hclauses' : clauses' ≠ [] := by
    intro hnil
    have hle := hmore.length_le
    simp [hnil, hne'] at hle
  constructor
  · have hle := hes.length_le
    have hle' := hmore.length_le
    simp only [List.length_append]
    omega
  · simp only [List.map_append]
    rw [intercalate_append (by simpa using hclauses) (by simpa using hclauses'),
      intercalate_append (by simpa using hne) (by simpa using hne'), hes.dumps_eq, hmore.dumps_eq]
  · simp only [List.map_append]
    rw [intercalate_append (by simpa using hclauses) (by simpa using hclauses'),
      intercalate_append (by simpa using hne) (by simpa using hne'), hes.texts_eq, hmore.texts_eq]
  · rw [List.flatMap_append, List.flatMap_append, hes.bares_eq, hmore.bares_eq]

/-- A chain is like the chain of the clauses that spell its own. -/
theorem Spelled.alike {clauses : List Expr} (h : Spelled p es clauses) (hlength : 2 ≤ es.length) :
    Alike p (.chain es span) (.chain clauses span') where
  dump_eq := by rw [dumpChars_chain, dumpChars_chain, h.dumps_eq]
  render_eq := by
    rw [render_chain hlength, render_chain (Nat.le_trans hlength h.length_le), h.texts_eq]
  isLiteral_eq := rfl
  isReference_eq := rfl
  bare_eq := by
    rw [bare, reread, form_chain, form_chain]
    exact congrArg (chain · default) h.bares_eq

/-- The place of a chain does not matter. -/
theorem Alike.chain_span {clauses : List Expr} (h : Alike p e (.chain clauses span))
    (span' : Span) : Alike p e (.chain clauses span') where
  dump_eq := by rw [← h.dump_eq, dumpChars_chain, dumpChars_chain]
  render_eq := by rw [← h.render_eq, render, render]
  isLiteral_eq := h.isLiteral_eq
  isReference_eq := h.isReference_eq
  bare_eq := by rw [← h.bare_eq, bare, bare, form_chain, form_chain]

/-- One clause spells an expression that is like it. -/
theorem Alike.spelled (h : Alike p e e') : Spelled p [e] [e'] where
  length_le := by simp
  dumps_eq := by rw [List.map_singleton, List.map_singleton, h.dump_eq]
  texts_eq := by rw [List.map_singleton, List.map_singleton, h.render_eq]
  bares_eq := by rw [List.flatMap_singleton, List.flatMap_singleton, h.bare_eq]

/-- The clauses of a chain spell an expression that is like the chain. -/
theorem Alike.spelled_clauses {clauses : List Expr} (h : Alike p e (.chain clauses span))
    (hne : clauses ≠ []) : Spelled p [e] clauses where
  length_le := List.length_pos_iff.mpr hne
  dumps_eq := by
    rw [← dumpChars_chain clauses span, h.dump_eq, List.map_singleton, List.intercalate_singleton]
  texts_eq := by
    rw [← render_chain_text clauses span, h.render_eq, List.map_singleton,
      List.intercalate_singleton]
  bares_eq := by
    rw [List.flatMap_singleton, ← h.bare_eq, bare, form_chain]
    rfl

/-! ## Expressions put together from like parts -/

namespace Alike

/-- Literals that are written alike. -/
theorem literal {value value' : Literal} (h : ∀ point, value'.render point = value.render point)
    (hform : value'.form = value.form) :
    Alike p (.literal value span) (.literal value' span') where
  dump_eq := h '.'
  render_eq := by rw [render, render, h]
  isLiteral_eq := rfl
  isReference_eq := rfl
  bare_eq := congrArg (Expr.literal · default) hform

/-- Names with members. -/
theorem name {identifier identifier' : Identifier} {identifierSpan identifierSpan' : Span}
    {chain chain' : List Segment} (h : identifier' = identifier.reread)
    (hkeys : memberKeys chain' = memberKeys chain) :
    Alike p (.name identifier identifierSpan chain span)
      (.name identifier' identifierSpan' chain' span') where
  dump_eq := by
    rw [dumpChars, dumpChars, h, identifier.render_reread, chainText_eq, chainText_eq, hkeys]
  render_eq := by
    rw [render, render, h, identifier.render_reread, renderChain_eq_of_memberKeys hkeys]
  isLiteral_eq := rfl
  isReference_eq := rfl
  bare_eq := by rw [bare, reread, form, form, h, map_form_of_memberKeys hkeys, id]

/-- Members of an expression. -/
theorem member {chain chain' : List Segment} (h : Alike p e e')
    (hkeys : memberKeys chain' = memberKeys chain) :
    Alike p (.member e chain span) (.member e' chain' span') where
  dump_eq := by rw [dumpChars, dumpChars, h.dump_eq, chainText_eq, chainText_eq, hkeys]
  render_eq := by rw [render, render, h.render_eq, renderChain_eq_of_memberKeys hkeys]
  isLiteral_eq := rfl
  isReference_eq := rfl
  bare_eq := by
    rw [bare, reread, form, form, map_form_of_memberKeys hkeys]
    exact congrArg (withMembers · _) h.bare_eq

/-- Calls. -/
theorem call {function : String} {qualifiers : List String} (h : AllAlike p es es') :
    Alike p (.call function es qualifiers span) (.call function es' qualifiers span') where
  dump_eq := by rw [dumpChars, dumpChars, dumpAll_eq_map, dumpAll_eq_map, h.dumps_eq]
  render_eq := by rw [render, render, renderAll_eq_map, renderAll_eq_map, h.renders_eq]
  isLiteral_eq := rfl
  isReference_eq := rfl
  bare_eq := by
    rw [bare, reread, form, form, formAll_eq_map, formAll_eq_map]
    exact congrArg (Expr.call function · qualifiers default) h.bares_eq

/-- Records. -/
theorem record {fields fields' : List Field} (h : FieldsAlike p fields fields') :
    Alike p (.record fields span) (.record fields' span') where
  dump_eq := by rw [dumpChars, dumpChars, h.dumps_eq]
  render_eq := by rw [render, render, h.renders_eq]
  isLiteral_eq := rfl
  isReference_eq := rfl
  bare_eq := congrArg (Expr.record · default) h.bares_eq

/-- Tables. -/
theorem table (h : AllAlike p es es') : Alike p (.table es span) (.table es' span') where
  dump_eq := by rw [dumpChars, dumpChars, dumpAll_eq_map, dumpAll_eq_map, h.dumps_eq]
  render_eq := by rw [render, render, renderAll_eq_map, renderAll_eq_map, h.renders_eq]
  isLiteral_eq := rfl
  isReference_eq := rfl
  bare_eq := by
    rw [bare, reread, form, form, formAll_eq_map, formAll_eq_map]
    exact congrArg (Expr.table · default) h.bares_eq

/-- Operations on one operand. -/
theorem unary {op : Operator} (h : Alike p e e') :
    Alike p (.unary op e span) (.unary op e' span') where
  dump_eq := by rw [dumpChars, dumpChars, h.dump_eq]
  render_eq := by rw [render, render, h.render_eq]
  isLiteral_eq := rfl
  isReference_eq := rfl
  bare_eq := congrArg (Expr.unary op · default) h.bare_eq

/-- Operations on two operands. -/
theorem binary {op : Operator} (hl : Alike p l l') (hr : Alike p r r') :
    Alike p (.binary op l r span) (.binary op l' r' span') where
  dump_eq := by rw [dumpChars, dumpChars, hl.dump_eq, hr.dump_eq]
  render_eq := by rw [render, render, hl.render_eq, hr.render_eq]
  isLiteral_eq := rfl
  isReference_eq := rfl
  bare_eq := by
    show Expr.binary op l'.bare r'.bare default = Expr.binary op l.reread r.reread default
    rw [hl.bare_eq, hr.bare_eq]

end Alike

end Expr

end FormulaLint
