import FormulaLint.Proofs.Forms.Faithful
import FormulaLint.Proofs.Grammar.Recovered
import FormulaLint.Proofs.RoundTrip.Formula
import Mathlib.Data.List.Basic

/-!
# Canonical forms of formulas

Whatever is read from a text, with diagnostics or without, has clauses of the shape of the grammar.
Two formulas have the same canonical form exactly if the canonical form shows the same of both.

Main results:

- Theorem {lit}`parse_every_shaped`: the clauses of a formula.
- Theorem {lit}`dump_eq_iff_canonical_eq`: canonical forms are equal as far as they show formulas.
-/

namespace FormulaLint

variable {p : Profile}

/-- A formula that is read, with diagnostics or without, is a chain of clauses that have the shape of
the grammar. -/
theorem parse_every_shaped {text : String} {placement : Placement} {parsed : Parsed}
    (h : parse p text placement = .ok parsed) :
    (∃ span, parsed.expr = .chain parsed.clauses span) ∧
      ∀ e ∈ parsed.clauses, e.Every Expr.Shaped := by
  rcases hmarker : stripMarker text.toList placement with ⟨body, place⟩
  rw [parse_eq hmarker] at h
  cases hread : readClauses ⟨p, (lex p body place).stop⟩ (lex p body place).tokens with
  | error n => simp [hread, Except.map] at h
  | ok progress =>
      rw [hread] at h
      obtain rfl := Except.ok.inj h
      refine ⟨formulaExpr_eq progress.clauses _, fun e he => ?_⟩
      rcases (recovers_of_readClauses hread).derives he with ⟨current, hderives, hsubset⟩
      exact hderives.shaped fun t ht number hnumber => numeral_of_mem_lex (hsubset ht) hnumber

/-! ## Forms that canonical forms show -/

/-- What an identifier shows is read back as the identifier is. -/
theorem Identifier.reread_canonical (identifier : Identifier) :
    identifier.canonical.reread = identifier.reread := by
  cases identifier with
  | field source name =>
      by_cases hempty : source.isEmpty = true <;>
        simp [Identifier.canonical, Identifier.reread, hempty]
  | _ => rfl

namespace Expr

/-- The identifiers of the names of an expression, in walking order. -/
def identifiers (e : Expr) : List Identifier :=
  e.walk.filterMap fun part =>
    match part.2 with
    | name identifier _ _ _ => some identifier
    | _ => none

/-- Whether canonical forms show everything of a part, without its own parts: its name is told by its
text, and neither its members nor its clauses stand behind a chain or in one. -/
def Evident : Expr → Prop
  | name identifier _ _ _ => identifier.reread = identifier
  | member base _ _ => base.isChain = false
  | chain clauses _ => ∀ c ∈ clauses, c.isChain = false
  | _ => True

instance : DecidablePred Evident
  | name identifier _ _ _ => inferInstanceAs (Decidable (identifier.reread = identifier))
  | member base _ _ => inferInstanceAs (Decidable (base.isChain = false))
  | chain clauses _ => inferInstanceAs (Decidable (∀ c ∈ clauses, c.isChain = false))
  | literal _ _ | call _ _ _ _ | record _ _ | table _ _ | unary _ _ _ | binary _ _ _ _ | hole =>
      .isTrue trivial

section

variable {e : Expr} {es es' : List Expr}

/-- Members behind what has none and is no chain. -/
theorem canonical_member {base : Expr} (hreference : base.isReference = false)
    (hchain : base.isChain = false) (members : List Segment) (span : Span) :
    (member base members span).canonical =
      member base.canonical (members.map Segment.form) default := by
  cases base with
  | name _ _ _ _ | member _ _ _ => simp [isReference] at hreference
  | chain _ _ => simp [isChain] at hchain
  | _ => rfl

/-- A literal of a tree that was read has nothing more to lose than its form. -/
theorem Shaped.form_form {value : Literal} {span : Span} (h : (literal value span).Shaped) :
    value.form.form = value.form := by
  refine Literal.form_form ?_
  rintro number written rfl
  exact h

section

variable (read : Identifier → Identifier) (attach : Expr → List Segment → Expr)

/-- The clauses of the form of an expression, by the clauses of the expression. -/
theorem flatMap_form_clauses (e : Expr) :
    (e.clauses.flatMap fun c => (c.form read attach).clauses) = (e.form read attach).clauses := by
  cases hchain : e.isChain with
  | false => rw [clauses_of_not_chain hchain, List.flatMap_singleton]
  | true =>
      cases e with
      | chain es span =>
          rw [form_chain]
          rfl
      | _ => simp [isChain] at hchain

/-- The form of a chain of expressions without places. -/
theorem form_bare_chain {es : List Expr} (span : Span)
    (h : ∀ c ∈ es, c.bare.form read attach = c.form read attach) :
    (chain es span).bare.form read attach = (chain es span).form read attach := by
  rw [bare, form_chain, form_chain, form_chain, List.flatMap_assoc]
  refine congrArg (chain · default) (List.flatMap_congr fun c hc => ?_)
  rw [flatMap_form_clauses]
  exact congrArg clauses (h c hc)

/-- What has a form without places has the same form as with them. -/
theorem form_bare (h : e.Every Shaped) : e.bare.form read attach = e.form read attach := by
  induction e using children_induct with
  | step e ih =>
      rcases every_iff.mp h with ⟨hshape, hchildren⟩
      have hparts : ∀ c ∈ e.children,
          (c.form id withMembers).form read attach = c.form read attach :=
        fun c hc => ih c hc (hchildren c hc)
      have hall : ∀ es : List Expr, (∀ c ∈ es, c ∈ e.children) →
          (es.map (form id withMembers)).map (form read attach) = es.map (form read attach) := by
        intro es hes
        rw [List.map_map]
        exact List.map_congr_left fun c hc => hparts c (hes c hc)
      cases e with
      | literal value span => rw [bare, form, form, form, hshape.form_form]
      | name identifier identifierSpan members span =>
          rw [bare, form, form, form, map_form_form, id]
      | member base members span =>
          rw [bare, form, withMembers, form, form, map_form_form, hparts base (by simp [children])]
      | call function arguments qualifiers span =>
          rw [bare, form, form, form, formAll_eq_map, formAll_eq_map, formAll_eq_map,
            hall arguments fun c hc => hc]
      | record fields span =>
          rw [bare, form, form, form, formFields_eq_map, formFields_eq_map, formFields_eq_map,
            List.map_map]
          refine congrArg (record · default) (List.map_congr_left fun field hfield => ?_)
          exact congrArg (Field.mk field.name · default)
            (hparts field.value (List.mem_map_of_mem hfield))
      | table elements span =>
          rw [bare, form, form, form, formAll_eq_map, formAll_eq_map, formAll_eq_map,
            hall elements fun c hc => hc]
      | unary op operand span =>
          rw [bare, form, form, form, hparts operand (by simp [children])]
      | binary op left right span =>
          rw [bare, form, form, form, hparts left (by simp [children]),
            hparts right (by simp [children])]
      | chain es span => exact form_bare_chain read attach span hparts
      | hole => rfl

end

/-- What is no chain is shown as no chain. -/
theorem isChain_canonical (h : e.Shaped) (hevident : e.Evident) (hchain : e.isChain = false) :
    e.canonical.isChain = false := by
  cases e with
  | member base members span =>
      rcases h with ⟨-, -, hreference, -⟩
      rw [canonical_member hreference hevident]
      rfl
  | chain _ _ => simp [isChain] at hchain
  | _ => rfl

/-- Canonical forms tell the form of a chain if they tell those of its clauses, none of which is a
chain. -/
theorem reread_canonical_chain {span : Span} (hparts : ∀ c ∈ es, c.canonical.reread = c.bare)
    (hflat : ∀ c ∈ es, c.canonical.isChain = false) :
    (chain es span).canonical.reread = (chain es span).bare := by
  rw [canonical, form_chain, reread, form_chain, bare, form_chain, List.flatMap_assoc]
  refine congrArg (chain · default) (List.flatMap_congr fun c hc => ?_)
  have hclause := clauses_of_not_chain (hflat c hc)
  rw [canonical] at hclause
  rw [hclause, List.flatMap_singleton]
  exact congrArg clauses (hparts c hc)

/-- Where canonical forms show everything, they tell the form of an expression. -/
theorem reread_canonical (h : e.Every Shaped) (hevident : e.Every Evident) :
    e.canonical.reread = e.bare := by
  induction e using children_induct with
  | step e ih =>
      rcases every_iff.mp h with ⟨hshape, hchildren⟩
      rcases every_iff.mp hevident with ⟨hshown, hevidents⟩
      have hparts : ∀ c ∈ e.children, (c.form Identifier.canonical attach).reread = c.bare :=
        fun c hc => ih c hc (hchildren c hc) (hevidents c hc)
      have hall : ∀ es : List Expr, (∀ c ∈ es, c ∈ e.children) →
          (es.map (form Identifier.canonical attach)).map reread = es.map bare := by
        intro es hes
        rw [List.map_map]
        exact List.map_congr_left fun c hc => hparts c (hes c hc)
      cases e with
      | literal value span => exact congrArg (literal · default) hshape.form_form
      | name identifier identifierSpan members span =>
          have hidentifier : identifier.reread = identifier := hshown
          rw [canonical, form, reread, form, bare, form, map_form_form,
            identifier.reread_canonical, hidentifier, id]
      | member base members span =>
          rcases hshape with ⟨-, -, hreference, -⟩
          rw [canonical_member hreference hshown, reread, form, map_form_form, bare, form]
          exact congrArg (withMembers · _) (hparts base (by simp [children]))
      | call function arguments qualifiers span =>
          rw [canonical, form, reread, form, bare, form, formAll_eq_map, formAll_eq_map,
            formAll_eq_map]
          exact congrArg (call function · qualifiers default) (hall arguments fun c hc => hc)
      | record fields span =>
          rw [canonical, form, reread, form, bare, form, formFields_eq_map, formFields_eq_map,
            formFields_eq_map, List.map_map]
          refine congrArg (record · default) (List.map_congr_left fun field hfield => ?_)
          exact congrArg (Field.mk field.name · default)
            (hparts field.value (List.mem_map_of_mem hfield))
      | table elements span =>
          rw [canonical, form, reread, form, bare, form, formAll_eq_map, formAll_eq_map,
            formAll_eq_map]
          exact congrArg (table · default) (hall elements fun c hc => hc)
      | unary op operand span =>
          exact congrArg (unary op · default) (hparts operand (by simp [children]))
      | binary op left right span =>
          show binary op left.canonical.reread right.canonical.reread default =
            binary op left.bare right.bare default
          rw [canonical, canonical, hparts left (by simp [children]),
            hparts right (by simp [children])]
      | chain es span =>
          exact reread_canonical_chain hparts fun c hc => isChain_canonical
            (every_iff.mp (hchildren c hc)).1 (every_iff.mp (hevidents c hc)).1 (hshown c hc)
      | hole => rfl

/-- Where canonical forms show everything of two chains of clauses, they show the same exactly of
those with the same form. -/
theorem canonical_eq_iff_bare_eq {span span' : Span} (h : ∀ e ∈ es, e.Every Shaped)
    (h' : ∀ e ∈ es', e.Every Shaped) (hevident : (chain es span).Every Evident)
    (hevident' : (chain es' span').Every Evident) :
    (chain es span).canonical = (chain es' span').canonical ↔
      (chain es span).bare = (chain es' span').bare := by
  have hbare : ∀ (cs : List Expr) (place : Span), (∀ c ∈ cs, c.Every Shaped) →
      (chain cs place).bare.canonical = (chain cs place).canonical := fun cs place hcs =>
    form_bare_chain Identifier.canonical attach place fun c hc => form_bare _ _ (hcs c hc)
  have hreread : ∀ (cs : List Expr) (place : Span), (∀ c ∈ cs, c.Every Shaped) →
      (chain cs place).Every Evident → (chain cs place).canonical.reread = (chain cs place).bare := by
    intro cs place hcs hshown
    rcases every_iff.mp hshown with ⟨hflat, hclauses⟩
    exact reread_canonical_chain (fun c hc => reread_canonical (hcs c hc) (hclauses c hc))
      fun c hc => isChain_canonical (every_iff.mp (hcs c hc)).1 (every_iff.mp (hclauses c hc)).1
        (hflat c hc)
  constructor
  · intro heq
    rw [← hreread es span h hevident, ← hreread es' span' h' hevident', heq]
  · intro heq
    rw [← hbare es span h, ← hbare es' span' h', heq]

/-! ## Clauses -/

/-- What clauses show, clause by clause. -/
theorem canonical_chain (es : List Expr) (span : Span) :
    (chain es span).canonical = chain (es.flatMap fun e => e.canonical.clauses) default :=
  form_chain Identifier.canonical attach es span

/-- What clauses show can be shown. -/
theorem every_canonical_clauses (h : ∀ e ∈ es, e.Every Shaped) :
    ∀ c ∈ es.flatMap (fun e => e.canonical.clauses), c.Every Showable ∧ c.isChain = false := by
  intro c hc
  rcases List.mem_flatMap.mp hc with ⟨e, he, hc⟩
  exact (every_canonical (h e he)).clauses c hc

/-- What clauses show is written the same way. -/
theorem dumpChars_canonical_clauses (h : ∀ e ∈ es, e.Every Shaped) :
    [';', ' '].intercalate ((es.flatMap fun e => e.canonical.clauses).map dumpChars) =
      [';', ' '].intercalate (es.map dumpChars) := by
  have hne : ∀ e ∈ es.map canonical, e.clauses ≠ [] :=
    List.forall_mem_map.mpr fun e he => (every_iff.mp (every_canonical (h e he))).1.clauses_ne_nil
  have htexts := dumpChars_flatMap_clauses hne
  rw [List.flatMap_map, List.map_map] at htexts
  rw [htexts]
  exact congrArg _ (List.map_congr_left fun e he => dumpChars_canonical (h e he))

/-- Some clauses have a text. -/
theorem dumpChars_ne_nil (h : ∀ c ∈ es, c.Every Showable) (hne : es ≠ []) :
    [';', ' '].intercalate (es.map dumpChars) ≠ [] := by
  rcases List.exists_cons_of_ne_nil hne with ⟨first, more, rfl⟩
  rcases (h first (by simp)).exists_start with ⟨c, cs, htext, -⟩
  rw [intercalate_map_cons, htext]
  simp

/-- Clauses that can be shown are told apart by their texts. -/
theorem clauses_eq_of_dumpChars (h : ∀ c ∈ es, c.Every Showable ∧ c.isChain = false)
    (h' : ∀ c ∈ es', c.Every Showable ∧ c.isChain = false)
    (heq : [';', ' '].intercalate (es.map dumpChars) = [';', ' '].intercalate (es'.map dumpChars)) :
    es = es' := by
  by_cases hne : es = []
  · subst hne
    by_cases hne' : es' = []
    · exact hne'.symm
    · exact absurd heq.symm (dumpChars_ne_nil (fun c hc => (h' c hc).1) hne')
  · by_cases hne' : es' = []
    · subst hne'
      exact absurd heq (dumpChars_ne_nil (fun c hc => (h c hc).1) hne)
    · have htold := fun c hc => (tells (h c hc).1).2.1 (h c hc).2
      have hmark : ∀ behind, EndsItem (';' :: behind) := endsItem_cons (by decide)
      rw [← List.append_nil ([';', ' '].intercalate (es.map dumpChars)),
        ← List.append_nil ([';', ' '].intercalate (es'.map dumpChars))] at heq
      exact (Distinct.intercalate htold h' hne hne' hmark endsItem_nil endsItem_nil (by simp)
        (by simp) heq).1

end

end Expr

/-- Every formula that is read, with diagnostics or without, has a canonical form, and two of them
have the same one exactly if canonical forms show the same of both.  Where canonical forms show
everything of two formulas, these are the same up to places and to numbers that are written alike. -/
theorem dump_eq_iff_canonical_eq (p p' : Profile) (text text' : String)
    (placement placement' : Placement) (parsed parsed' : Parsed)
    (h : parse p text placement = .ok parsed) (h' : parse p' text' placement' = .ok parsed') :
    ∃ dumped dumped', parsed.expr.dump = .ok dumped ∧ parsed'.expr.dump = .ok dumped' ∧
      (dumped = dumped' ↔ parsed.expr.canonical = parsed'.expr.canonical) ∧
      (parsed.expr.Every Expr.Evident → parsed'.expr.Every Expr.Evident →
        (dumped = dumped' ↔ parsed.expr.bare = parsed'.expr.bare)) := by
  rcases parse_every_shaped h with ⟨⟨span, hexpr⟩, hshaped⟩
  rcases parse_every_shaped h' with ⟨⟨span', hexpr'⟩, hshaped'⟩
  rw [hexpr, hexpr']
  have hiff : String.ofList ([';', ' '].intercalate (parsed.clauses.map Expr.dumpChars)) =
      String.ofList ([';', ' '].intercalate (parsed'.clauses.map Expr.dumpChars)) ↔
        (Expr.chain parsed.clauses span).canonical = (Expr.chain parsed'.clauses span').canonical := by
    rw [String.ofList_inj, Expr.canonical_chain, Expr.canonical_chain,
      ← Expr.dumpChars_canonical_clauses hshaped, ← Expr.dumpChars_canonical_clauses hshaped']
    constructor
    · intro heq
      rw [Expr.clauses_eq_of_dumpChars (Expr.every_canonical_clauses hshaped)
        (Expr.every_canonical_clauses hshaped') heq]
    · intro heq
      rw [(Expr.chain.inj heq).1]
  refine ⟨_, _, dump_chain hshaped span, dump_chain hshaped' span', hiff,
    fun hevident hevident' => ?_⟩
  rw [hiff, Expr.canonical_eq_iff_bare_eq hshaped hshaped' hevident hevident']

/-- A formula in two profiles, with a number, an operator and parentheses written in two ways. -/
theorem dump_eq_iff_across_profiles :
    let text := "=If(Not a, {n: 1., m: [.5, (x.y)]}); 'b c'[@d]"
    let text' := "If( Not(a);{n: 1; m: [0,5; x.y]});; 'b c'[@d]"
    ∃ parsed parsed', parse .dotDecimal text {} = .ok parsed ∧
      parse .commaDecimal text' {} = .ok parsed' ∧
      parsed.expr.Every Expr.Evident ∧ parsed'.expr.Every Expr.Evident ∧
      ∃ dumped dumped', parsed.expr.dump = .ok dumped ∧ parsed'.expr.dump = .ok dumped' ∧
        (dumped = dumped' ↔ parsed.expr.canonical = parsed'.expr.canonical) ∧
        (parsed.expr.Every Expr.Evident → parsed'.expr.Every Expr.Evident →
          (dumped = dumped' ↔ parsed.expr.bare = parsed'.expr.bare)) := by
  intro text text'
  rcases exists_parse_of_decide .dotDecimal text {} (fun parsed => parsed.expr.Every Expr.Evident)
    (by decide +kernel) with ⟨parsed, hparse, hevident⟩
  rcases exists_parse_of_decide .commaDecimal text' {} (fun parsed => parsed.expr.Every Expr.Evident)
    (by decide +kernel) with ⟨parsed', hparse', hevident'⟩
  exact ⟨parsed, parsed', hparse, hparse', hevident, hevident',
    dump_eq_iff_canonical_eq .dotDecimal .commaDecimal text text' {} {} parsed parsed' hparse hparse'⟩

/-- A quoted name that is spelled like the keyword for the current item has the canonical form of
that keyword. -/
theorem dump_quoted_keyword :
    ∃ parsed parsed', parse .dotDecimal "'ThisItem'" {} = .ok parsed ∧
      parse .dotDecimal "ThisItem" {} = .ok parsed' ∧
      parsed.expr.dump = .ok "ThisItem" ∧ parsed'.expr.dump = .ok "ThisItem" ∧
      parsed.expr.identifiers = [.plain "ThisItem"] ∧
      parsed'.expr.identifiers = [.context "ThisItem"] := by
  rcases exists_parse_of_decide .dotDecimal "'ThisItem'" {} (fun parsed =>
    parsed.expr.dump = .ok "ThisItem" ∧ parsed.expr.identifiers = [.plain "ThisItem"])
    (by decide +kernel) with ⟨parsed, hparse, hdump, hnames⟩
  rcases exists_parse_of_decide .dotDecimal "ThisItem" {} (fun parsed =>
    parsed.expr.dump = .ok "ThisItem" ∧ parsed.expr.identifiers = [.context "ThisItem"])
    (by decide +kernel) with ⟨parsed', hparse', hdump', hnames'⟩
  exact ⟨parsed, parsed', hparse, hparse', hdump, hdump', hnames, hnames'⟩

end FormulaLint
