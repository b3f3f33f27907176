import FormulaLint.Proofs.Binding.Scopes
import FormulaLint.Proofs.Forms.Form
import FormulaLint.Proofs.Grammar.Shape
import Mathlib.Data.List.Basic

/-!
# What references mean without places

The references of an expression are bound each in the scope of its own part.  What they are bound
to, in walking order, depends neither on places nor on whether the clauses of a chain are chains
themselves.

Main results:

- Theorem {lit}`Expr.referenceBindings_eq`: references are bound to what they mean.
- Theorem {lit}`Expr.meanings_eq`: the references of an expression and of its children.
- Theorem {lit}`Expr.meanings_bare`: the form of an expression has references with the same
  meanings.
-/

namespace FormulaLint

namespace Expr

/-- What the references of an expression are bound to, in walking order.  Members of what is no name
are bound to nothing. -/
def referenceBindings (symbols : SymbolTable) (scope : Scope) (e : Expr) : List (Option Binding) :=
  (e.walk.filter fun part => part.2.isReference).map fun part =>
    (resolve symbols scope e).bindings.get? part.1

/-- What an expression is bound to in a scope, if it is a name. -/
def meaning? (symbols : SymbolTable) (scope : Scope) : Expr → Option Binding
  | name identifier place members _ =>
      some (NameReference.bind ⟨identifier, place, members⟩ symbols scope).binding
  | _ => none

/-- What the references of an expression mean, each in its own scope, in walking order. -/
def meanings (symbols : SymbolTable) (scope : Scope) (e : Expr) : List (Option Binding) :=
  (e.walk.filter fun part => part.2.isReference).map fun part =>
    part.2.meaning? symbols (e.scopeAt symbols scope part.1)

variable {symbols : SymbolTable} {scope : Scope} {e : Expr}

/-! ## References in walking order -/

/-- What has no meaning by itself is not bound. -/
theorem get?_of_meaning?_eq_none {path : Path} {part : Expr} (inner : Scope)
    (hat : e.at? path = some part) (hmeaning : part.meaning? symbols inner = none) :
    (resolve symbols scope e).bindings.get? path = none := by
  refine OrderedMap.get?_eq_none_of_not_mem fun binding hbinding => ?_
  rcases List.mem_map.mp hbinding with ⟨⟨path', bound⟩, hbound, heq⟩
  rcases mem_bindNames.mp hbound with ⟨rel, _, _, _, _, hpath, hat', -⟩
  obtain ⟨rfl, -⟩ := Prod.mk.inj heq
  obtain rfl : path' = rel := hpath
  rw [hat] at hat'
  rw [Option.some.inj hat'] at hmeaning
  simp [meaning?] at hmeaning

/-- References are bound to what they mean. -/
theorem referenceBindings_eq (symbols : SymbolTable) (scope : Scope) (e : Expr) :
    e.referenceBindings symbols scope = e.meanings symbols scope := by
  refine List.map_congr_left fun ⟨path, part⟩ hpart => ?_
  rcases mem_walkFrom.mp (List.mem_filter.mp hpart).1 with ⟨rel, hpath, hat⟩
  obtain rfl : path = rel := hpath
  cases part with
  | name _ _ _ _ => exact resolve_resolves symbols scope e path _ _ _ _ hat
  | _ => exact get?_of_meaning?_eq_none scope hat rfl

/-- The references of an expression are itself and those of its children, each in the scope of the
child. -/
theorem meanings_eq (symbols : SymbolTable) (scope : Scope) (e : Expr) :
    e.meanings symbols scope =
      (if e.isReference then [e.meaning? symbols scope] else []) ++
        e.children.zipIdx.flatMap fun c => c.1.meanings symbols (e.childScope symbols scope c.2) := by
  have hchildren : ((walkAll [] 0 e.children).filter fun part => part.2.isReference).map
      (fun part => part.2.meaning? symbols (e.scopeAt symbols scope part.1)) =
        e.children.zipIdx.flatMap fun c => c.1.meanings symbols (e.childScope symbols scope c.2) := by
    rw [walkAll_eq_flatMap, List.filter_flatMap, List.map_flatMap]
    refine List.flatMap_congr fun c hc => ?_
    have hchild := List.mem_zipIdx_iff_getElem?.mp hc
    rw [walkFrom_eq_map, List.filter_map, List.map_map, meanings]
    refine List.map_congr_left fun part _ => ?_
    rw [Function.comp_apply, ← scopeAt_cons hchild]
    rfl
  rw [meanings, walk_eq, List.filter_cons, ← hchildren]
  split <;> rfl

/-! ## Meanings and places -/

end Expr

/-- What a name is bound to depends on the name and its first member, not on its place. -/
theorem NameReference.binding_eq (r r' : NameReference) (hidentifier : r.identifier = r'.identifier)
    (hmember : r.member = r'.member) (symbols : SymbolTable) (scope : Scope) :
    (r.bind symbols scope).binding = (r'.bind symbols scope).binding := by
  rcases r with ⟨identifier, span, chain⟩
  rcases r' with ⟨identifier', span', chain'⟩
  obtain rfl : identifier = identifier' := hidentifier
  cases identifier with
  | plain name =>
      simp only [bind, bindPlain, fieldOf, declared, unresolved, hmember]
      repeat' split
      all_goals rfl
  | global name =>
      simp only [bind, bindGlobal, declared, unresolved, hmember]
      split <;> rfl
  | field source name =>
      simp only [bind, bindField, bindField.check, unresolved, hmember]
      repeat' split
      all_goals rfl
  | context keyword =>
      simp only [bind, bindControl, bindRecord, hmember]
      repeat' split
      all_goals rfl

namespace Expr

variable {symbols : SymbolTable} {scope : Scope} {e : Expr}

/-- The first member of a name is the same without places. -/
theorem bind_form (symbols : SymbolTable) (scope : Scope) (identifier : Identifier)
    (span span' : Span) (members : List Segment) :
    (NameReference.bind ⟨identifier, span, members.map Segment.form⟩ symbols scope).binding =
      (NameReference.bind ⟨identifier, span', members⟩ symbols scope).binding := by
  refine NameReference.binding_eq ⟨_, span, members.map Segment.form⟩ ⟨_, span', members⟩ rfl ?_
    symbols scope
  cases members <;> rfl

/-- The children of the form of an expression are the forms of its children, chains apart. -/
theorem children_bare (h : e.isChain = false) : e.bare.children = e.children.map bare := by
  cases e with
  | call function arguments qualifiers span =>
      rw [bare, form, children, children, formAll_eq_map]
      rfl
  | table elements span =>
      rw [bare, form, children, children, formAll_eq_map]
      rfl
  | record fields span =>
      rw [bare, form, children, children, formFields_eq_map, List.map_map, List.map_map]
      rfl
  | chain _ _ => simp [isChain] at h
  | _ => rfl

/-- The data source that an expression names is the same without places. -/
theorem sourceIn_bare (e : Expr) (symbols : SymbolTable) (scope : Scope) :
    e.bare.sourceIn symbols scope = e.sourceIn symbols scope := by
  fun_induction sourceIn symbols scope e with
  | case1 function first rest span hrows ih =>
      rw [bare, form, formAll, sourceIn, if_pos hrows]
      exact ih
  | case2 function first rest span hrows => rw [bare, form, formAll, sourceIn, if_neg hrows]
  | case3 identifier span whole => rfl
  | case4 e hcall hname =>
      cases e with
      | call function arguments qualifiers span =>
          cases arguments with
          | nil => rfl
          | cons first rest =>
              cases qualifiers with
              | nil => exact absurd rfl (hcall function first rest span)
              | cons _ _ => rfl
      | name identifier identifierSpan members span =>
          cases members with
          | nil => exact absurd rfl (hname identifier identifierSpan span)
          | cons _ _ => rfl
      | _ => rfl

/-- The table of a record scope without places. -/
theorem rowTable?_bare (e : Expr) (i : Nat) : e.bare.rowTable? i = (e.rowTable? i).map bare := by
  cases e with
  | call function arguments qualifiers span =>
      cases arguments with
      | nil => rfl
      | cons first rest =>
          cases qualifiers with
          | nil =>
              rw [bare, form, formAll, rowTable?, rowTable?]
              split <;> rfl
          | cons _ _ => rfl
  | _ => rfl

/-- The scope of a child is the same without places. -/
theorem childScope_bare (e : Expr) (i : Nat) :
    e.bare.childScope symbols scope i = e.childScope symbols scope i := by
  rw [childScope, childScope, rowTable?_bare]
  cases e.rowTable? i with
  | none => rfl
  | some rows =>
      dsimp only [Option.map_some]
      rw [sourceIn_bare]

/-- The references of chained expressions are those of each of them. -/
theorem meanings_chain (es : List Expr) (span : Span) :
    (chain es span).meanings symbols scope = es.flatMap (meanings symbols scope) := by
  have hscope : ∀ i, (chain es span).childScope symbols scope i = scope := fun _ => rfl
  have hreference : (chain es span).isReference = false := rfl
  rw [meanings_eq, hreference, if_neg (by simp), List.nil_append]
  simp only [hscope]
  rw [children, ← List.flatMap_map Prod.fst, List.zipIdx_map_fst]

/-- The references of an expression are those of its clauses. -/
theorem meanings_clauses (e : Expr) :
    e.clauses.flatMap (meanings symbols scope) = e.meanings symbols scope := by
  cases hchain : e.isChain with
  | false => rw [clauses_of_not_chain hchain, List.flatMap_singleton]
  | true =>
      cases e with
      | chain es span => rw [clauses, meanings_chain]
      | _ => simp [isChain] at hchain

/-- What an expression is by itself does not depend on places. -/
theorem meaning?_bare (h : e.isChain = false) :
    e.bare.isReference = e.isReference ∧
      e.bare.meaning? symbols scope = e.meaning? symbols scope := by
  cases e with
  | name identifier identifierSpan members span =>
      exact ⟨rfl, congrArg some (bind_form symbols scope identifier default identifierSpan members)⟩
  | chain _ _ => simp [isChain] at h
  | _ => exact ⟨rfl, rfl⟩

/-- The form of an expression has references with the same meanings. -/
theorem meanings_bare (e : Expr) (symbols : SymbolTable) (scope : Scope) :
    e.bare.meanings symbols scope = e.meanings symbols scope := by
  induction e using children_induct generalizing scope with
  | step e ih =>
      cases hchain : e.isChain with
      | true =>
          cases e with
          | chain es span =>
              rw [bare, form_chain, meanings_chain, meanings_chain, List.flatMap_assoc]
              refine List.flatMap_congr fun c hc => ?_
              rw [meanings_clauses]
              exact ih c hc scope
          | _ => simp [isChain] at hchain
      | false =>
          rcases meaning?_bare hchain with ⟨hreference, hmeaning⟩
          rw [meanings_eq, meanings_eq, hreference, hmeaning, children_bare hchain, List.zipIdx_map,
            List.flatMap_map]
          refine congrArg _ (List.flatMap_congr fun c hc => ?_)
          rw [Prod.map, childScope_bare]
          exact ih c.1 (List.fst_mem_of_mem_zipIdx hc) _

end Expr

end FormulaLint
