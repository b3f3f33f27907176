import FormulaLint.Proofs.Grammar.Basic
import FormulaLint.Proofs.Lexing.Numbers
import FormulaLint.Proofs.Parts

/-!
# Trees of the grammar

The grammar derives only trees of a certain shape: members are accessed behind something that has
none yet, a chain has two clauses or more, operators stand where they may, and nothing is missing.
Numbers have the texts that lexing gives them.

Main results:

- Theorem {lit}`Derives.shaped`: every part of a tree that the grammar derives has its shape.
- Theorem {lit}`Series.shaped`: the same for the clauses of a series.
-/

namespace FormulaLint

namespace Expr

/-- Whether an expression is a name or ends with members. -/
def isReference : Expr → Bool
  | name _ _ _ _ | member _ _ _ => true
  | _ => false

/-- The shape of a part of a tree that was read, without its own parts. -/
def Shaped : Expr → Prop
  | literal (.number _ text) _ => Numeral text.toList
  | literal _ _ | call _ _ _ _ | record _ _ | table _ _ => True
  | name _ _ segments _ =>
      ∀ segment ∈ segments, segment.separator = .dot ∨ segment.separator = .notSign
  | member base segments _ => segments ≠ [] ∧ base.isLiteral = false ∧ base.isReference = false ∧
      ∀ segment ∈ segments, segment.separator = .dot ∨ segment.separator = .notSign
  | unary op _ _ => op.isPrefix = true ∨ op = .percent
  | binary op _ _ _ => op.binding?.isSome = true
  | chain clauses _ => 2 ≤ clauses.length
  | hole => False

/-- What has its shape can be written. -/
theorem Shaped.renderError? {e : Expr} (h : e.Shaped) : e.renderError? = none := by
  cases e with
  | binary op left right span =>
      have hop : op.binding?.isNone = false := by simpa [Shaped, Option.isSome_iff_ne_none] using h
      simp [Expr.renderError?, hop]
  | hole => exact absurd h id
  | _ => rfl

/-- What has its shape has a canonical form. -/
theorem Shaped.dumpError? {e : Expr} (h : e.Shaped) : e.dumpError? = none := by
  cases e with
  | hole => exact absurd h id
  | _ => rfl

end Expr

/-- The trees of a phrase have their shape, with all their parts. -/
def Phrase.Shaped : Phrase → Prop
  | .primary e | .member e | .suffixed e | .level _ e | .chain e => e.Every Expr.Shaped
  | .clauses es => es ≠ [] ∧ ∀ e ∈ es, e.Every Expr.Shaped
  | .arguments es | .elements es => ∀ e ∈ es, e.Every Expr.Shaped
  | .fields fs => ∀ field ∈ fs, field.value.Every Expr.Shaped

section

variable {e : Expr} {es : List Expr} {ts : List Token}

/-- Adding to a list of trees. -/
theorem forall_mem_snoc {α : Type} {P : α → Prop} {xs : List α} {x : α} (hxs : ∀ y ∈ xs, P y)
    (hx : P x) : ∀ y ∈ xs ++ [x], P y := by
  intro y hy
  rcases List.mem_append.mp hy with hy | hy
  · exact hxs y hy
  · have hyx : y = x := by simpa using hy
    rw [hyx]
    exact hx

/-- A literal has its shape. -/
theorem shaped_literal {t : Token} {l : Literal} {span : Span}
    (hts : ∀ number, t.payload = .number number → Numeral number.toList)
    (h : t.literal? = some l) : (Expr.literal l span).Every Expr.Shaped := by
  refine Expr.every_iff.mpr ⟨?_, by simp [Expr.children]⟩
  unfold Token.literal? at h
  split at h
  · rw [← Option.some.inj h]
    trivial
  · rw [← Option.some.inj h]
    trivial
  · rename_i text hpayload
    split at h
    · rw [← Option.some.inj h]
      exact hts text hpayload
    · simp at h
  · simp at h

/-- A chain of clauses has its shape. -/
theorem shaped_chainTree (hne : es ≠ []) (h : ∀ e ∈ es, e.Every Expr.Shaped) :
    (chainTree es ts).Every Expr.Shaped := by
  unfold chainTree
  split
  · rename_i only
    exact h only (by simp)
  · rename_i hnot
    refine Expr.every_iff.mpr ⟨?_, h⟩
    rcases es with _ | ⟨first, _ | ⟨second, others⟩⟩
    · exact absurd rfl hne
    · exact absurd rfl (hnot first)
    · simp [Expr.Shaped]

/-- Accessing a member keeps the shape. -/
theorem shaped_accessMember {segment : Segment} {span : Span} (h : e.Every Expr.Shaped)
    (hliteral : e.isLiteral = false)
    (hop : segment.separator = .dot ∨ segment.separator = .notSign) :
    (accessMember e segment span).Every Expr.Shaped := by
  rcases Expr.every_iff.mp h with ⟨hshape, hchildren⟩
  -- anything but a reference gets its first member
  have hfirst : e.isReference = false →
      (Expr.member e [segment] (e.span.cover span)).Every Expr.Shaped := by
    intro hreference
    refine Expr.every_iff.mpr ⟨⟨by simp, hliteral, hreference, by simpa using hop⟩, ?_⟩
    intro c hc
    have hce : c = e := by simpa [Expr.children] using hc
    rw [hce]
    exact h
  cases e with
  | name identifier identifierSpan segments nameSpan =>
      exact Expr.every_iff.mpr ⟨forall_mem_snoc hshape hop, hchildren⟩
  | member base segments memberSpan =>
      rcases hshape with ⟨-, hbase, hreference, hsegments⟩
      exact Expr.every_iff.mpr
        ⟨⟨by simp, hbase, hreference, forall_mem_snoc hsegments hop⟩, hchildren⟩
  | literal _ _ | call _ _ _ _ | record _ _ | table _ _ | unary _ _ _ | binary _ _ _ _ | chain _ _
  | hole => exact hfirst rfl

/-- An operation on one operand has its shape. -/
theorem shaped_unary {op : Operator} {span : Span} (hop : op.isPrefix = true ∨ op = .percent)
    (h : e.Every Expr.Shaped) : (Expr.unary op e span).Every Expr.Shaped := by
  refine Expr.every_iff.mpr ⟨hop, fun c hc => ?_⟩
  have hce : c = e := by simpa [Expr.children] using hc
  rw [hce]
  exact h

/-- An operation on two operands has its shape. -/
theorem shaped_binary {op : Operator} {n : Nat} {g : Associativity} {l r : Expr} {span : Span}
    (hop : op.binding? = some (n, g)) (hl : l.Every Expr.Shaped) (hr : r.Every Expr.Shaped) :
    (Expr.binary op l r span).Every Expr.Shaped := by
  refine Expr.every_iff.mpr ⟨by simp [Expr.Shaped, hop], fun c hc => ?_⟩
  have hce : c = l ∨ c = r := by simpa [Expr.children] using hc
  rcases hce with rfl | rfl
  · exact hl
  · exact hr

end

/-- Every part of a tree that the grammar derives has its shape. -/
theorem Derives.shaped {phrase : Phrase} {ts : List Token} (h : Derives phrase ts)
    (hts : ∀ t ∈ ts, ∀ number, t.payload = .number number → Numeral number.toList) :
    phrase.Shaped := by
  induction h with
  | literal hliteral => exact shaped_literal (hts _ (by simp)) hliteral
  | name _ | global _ | field _ =>
      exact Expr.every_iff.mpr
        ⟨by simp [reference, Expr.Shaped], by simp [reference, Expr.children]⟩
  | call _ _ _ _ ih =>
      exact Expr.every_iff.mpr ⟨trivial, ih fun t ht => hts t (by simp [ht])⟩
  | group _ _ _ ih => exact ih fun t ht => hts t (by simp [ht])
  | record _ _ _ ih =>
      refine Expr.every_iff.mpr ⟨trivial, fun c hc => ?_⟩
      rcases List.mem_map.mp hc with ⟨field, hfield, rfl⟩
      exact ih (fun t ht => hts t (by simp [ht])) field hfield
  | table _ _ _ ih =>
      exact Expr.every_iff.mpr ⟨trivial, ih fun t ht => hts t (by simp [ht])⟩
  | bare _ ih | unsuffixed _ ih | operand _ ih | looser _ ih => exact ih hts
  | access _ hliteral hop _ _ ih =>
      exact shaped_accessMember (ih fun t ht => hts t (by simp [ht])) hliteral hop
  | qualifiedCall _ _ _ _ _ _ _ _ ih =>
      exact Expr.every_iff.mpr ⟨trivial, ih fun t ht => hts t (by simp [ht])⟩
  | percent _ _ ih => exact shaped_unary (Or.inr rfl) (ih fun t ht => hts t (by simp [ht]))
  | unary hop _ _ ih => exact shaped_unary (Or.inl hop) (ih fun t ht => hts t (by simp [ht]))
  | leftGrouped hop _ _ _ ihl ihr | rightGrouped hop _ _ _ ihl ihr | ungrouped hop _ _ _ ihl ihr =>
      exact shaped_binary hop (ihl fun t ht => hts t (by simp [ht]))
        (ihr fun t ht => hts t (by simp [ht]))
  | firstClause _ ih => exact ⟨by simp, by simpa [Phrase.Shaped] using ih hts⟩
  | nextClause _ _ _ ihes ih =>
      exact ⟨by simp, forall_mem_snoc (ihes fun t ht => hts t (by simp [ht])).2
        (ih fun t ht => hts t (by simp [ht]))⟩
  | chain _ ih =>
      have hes := ih hts
      exact shaped_chainTree hes.1 hes.2
  | trailedChain _ _ ih =>
      have hes := ih fun t ht => hts t (by simp [ht])
      exact shaped_chainTree hes.1 hes.2
  | noArguments | noElements | noFields => simp [Phrase.Shaped]
  | firstArgument _ ih | firstElement _ ih => simpa [Phrase.Shaped] using ih hts
  | nextArgument _ _ _ _ ihes ih | nextElement _ _ _ _ ihes ih =>
      exact forall_mem_snoc (ihes fun t ht => hts t (by simp [ht]))
        (ih fun t ht => hts t (by simp [ht]))
  | firstField _ _ _ ih =>
      simpa [Phrase.Shaped, Field.value] using ih fun t ht => hts t (by simp [ht])
  | nextField _ _ _ _ _ _ ihfs ih =>
      exact forall_mem_snoc (ihfs fun t ht => hts t (by simp [ht]))
        (ih fun t ht => hts t (by simp [ht]))

/-- Every part of the clauses of a series has its shape. -/
theorem Series.shaped {ts : List Token} {es : List Expr} (h : Series ts es)
    (hts : ∀ t ∈ ts, ∀ number, t.payload = .number number → Numeral number.toList) :
    ∀ e ∈ es, e.Every Expr.Shaped := by
  induction h with
  | nil => simp
  | separator _ _ ih => exact ih fun t ht => hts t (by simp [ht])
  | last he => simpa [Phrase.Shaped] using he.shaped hts
  | clause he _ _ ih =>
      intro e hmem
      rcases List.mem_cons.mp hmem with rfl | hmem
      · exact he.shaped fun t ht => hts t (by simp [ht])
      · exact ih (fun t ht => hts t (by simp [ht])) e hmem

end FormulaLint
