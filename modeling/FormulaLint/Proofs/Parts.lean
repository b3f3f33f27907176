import FormulaLint.Expr.Render

/-!
# Parts of an expression

What is said of an expression often has to hold of each of its parts.  This module says what lists
and chains of parts are written as, gives the induction over parts, and says when an expression can
be written.

Main results:

- Theorem {lit}`Expr.render_chain`: what is written for a chain.
- Theorem {lit}`Expr.children_induct`: induction over the parts of an expression.
- Theorem {lit}`Expr.every_iff`: a property of every part, by the expression and its children.
- Theorem {lit}`Expr.unparse_eq_ok` and {lit}`Expr.dump_eq_ok`: what can be written.
-/

namespace FormulaLint

/-! ## Lists of parts -/

/-- Writing a list of expressions is writing each of them. -/
theorem renderAll_eq_map (p : Profile) (es : List Expr) :
    renderAll p es = es.map (Expr.render p) := by
  induction es with
  | nil => rfl
  | cons e rest ih => rw [renderAll, ih, List.map_cons]

/-- Writing a list of fields is writing each of them. -/
theorem renderFields_eq_map (p : Profile) (fields : List Field) :
    renderFields p fields = fields.map fun field =>
      nameText field.name ++ ':' :: ' ' :: (field.value.render p).unchained := by
  induction fields with
  | nil => rfl
  | cons field rest ih =>
      rcases field with ⟨name, value, span⟩
      rw [renderFields, ih, List.map_cons]
      rfl

/-- The canonical forms of a list of expressions are those of each of them. -/
theorem dumpAll_eq_map (es : List Expr) : dumpAll es = es.map Expr.dumpChars := by
  induction es with
  | nil => rfl
  | cons e rest ih => rw [dumpAll, ih, List.map_cons]

/-- The canonical forms of a list of fields are those of each of them. -/
theorem dumpFields_eq_map (fields : List Field) :
    dumpFields fields = fields.map fun field =>
      nameText field.name ++ ':' :: ' ' :: field.value.dumpChars := by
  induction fields with
  | nil => rfl
  | cons field rest ih =>
      rcases field with ⟨name, value, span⟩
      rw [dumpFields, ih, List.map_cons]
      rfl

namespace Expr

/-! ## Chains -/

variable {p : Profile}

/-- The canonical form of a chain. -/
theorem dumpChars_chain (clauses : List Expr) (span : Span) :
    (chain clauses span).dumpChars = [';', ' '].intercalate (clauses.map dumpChars) := by
  rw [dumpChars, dumpAll_eq_map]

/-- The text of a chain. -/
theorem render_chain_text (clauses : List Expr) (span : Span) :
    ((chain clauses span).render p).text =
      (chainGap p).intercalate (clauses.map fun e => (e.render p).text) := by
  rw [render, renderAll_eq_map]
  split
  · rename_i only hclauses
    rcases List.map_eq_singleton_iff.mp hclauses with ⟨e, rfl, rfl⟩
    simp
  · simp only [List.map_map]
    rfl

/-- What is rendered of a chain of two clauses or more. -/
theorem render_chain {clauses : List Expr} (h : 2 ≤ clauses.length) (span : Span) :
    (chain clauses span).render p =
      ⟨(chainGap p).intercalate (clauses.map fun e => (e.render p).text), chainLevel⟩ := by
  rw [render, renderAll_eq_map]
  split
  · rename_i only hclauses
    rcases List.map_eq_singleton_iff.mp hclauses with ⟨e, rfl, -⟩
    simp at h
  · simp only [List.map_map]
    rfl

/-! ## Induction over parts -/

/-- The children of an expression are smaller. -/
theorem sizeOf_lt_of_mem_children {e c : Expr} (h : c ∈ e.children) : sizeOf c < sizeOf e := by
  cases e with
  | literal _ _ | name _ _ _ _ | hole => simp [children] at h
  | member base chain span =>
      have hc : c = base := by simpa [children] using h
      subst hc
      simp only [member.sizeOf_spec]
      omega
  | unary op operand span =>
      have hc : c = operand := by simpa [children] using h
      subst hc
      simp only [unary.sizeOf_spec]
      omega
  | binary op left right span =>
      have hc : c = left ∨ c = right := by simpa [children] using h
      simp only [binary.sizeOf_spec]
      rcases hc with rfl | rfl <;> omega
  | call function arguments qualifiers span =>
      have hlt := List.sizeOf_lt_of_mem (show c ∈ arguments from h)
      simp only [call.sizeOf_spec]
      omega
  | table elements span =>
      have hlt := List.sizeOf_lt_of_mem (show c ∈ elements from h)
      simp only [table.sizeOf_spec]
      omega
  | chain clauses span =>
      have hlt := List.sizeOf_lt_of_mem (show c ∈ clauses from h)
      simp only [chain.sizeOf_spec]
      omega
  | record fields span =>
      rcases List.mem_map.mp (show c ∈ fields.map Field.value from h) with ⟨field, hfield, rfl⟩
      have hlt := List.sizeOf_lt_of_mem hfield
      rcases field with ⟨name, value, fieldSpan⟩
      simp only [Field.mk.sizeOf_spec] at hlt
      simp only [record.sizeOf_spec, Field.value]
      omega

/-- Induction over the parts of an expression. -/
theorem children_induct {motive : Expr → Prop}
    (step : ∀ e, (∀ c ∈ e.children, motive c) → motive e) (e : Expr) : motive e :=
  step e fun c hc =>
    have := sizeOf_lt_of_mem_children hc
    children_induct step c
termination_by sizeOf e

/-! ## Properties of every part -/

/-- Whether every part of an expression has a property. -/
def Every (P : Expr → Prop) (e : Expr) : Prop :=
  ∀ part ∈ e.walk, P part.2

instance (P : Expr → Prop) [DecidablePred P] (e : Expr) : Decidable (Every P e) :=
  inferInstanceAs (Decidable (∀ part ∈ e.walk, P part.2))

/-- The parts of the children do not depend on where the walk starts. -/
theorem map_snd_walkAll {es : List Expr}
    (h : ∀ e ∈ es, ∀ here, (e.walkFrom here).map Prod.snd = e.walk.map Prod.snd) (here : Path)
    (index : Nat) :
    (walkAll here index es).map Prod.snd = es.flatMap fun e => e.walk.map Prod.snd := by
  induction es generalizing index with
  | nil => rfl
  | cons e rest ih =>
      have hrest := ih (fun e' he' => h e' (List.mem_cons_of_mem e he')) (index + 1)
      rw [walkAll, List.map_append, List.flatMap_cons, hrest, h e (List.mem_cons_self ..)]

/-- The parts of an expression do not depend on where the walk starts. -/
theorem map_snd_walkFrom (e : Expr) (here : Path) :
    (e.walkFrom here).map Prod.snd = e.walk.map Prod.snd := by
  induction e using children_induct generalizing here with
  | step e ih =>
      rw [walk, walkFrom_eq, walkFrom_eq, List.map_cons, List.map_cons,
        map_snd_walkAll ih, map_snd_walkAll ih]

/-- The parts of an expression are itself and the parts of its children. -/
theorem map_snd_walk (e : Expr) :
    e.walk.map Prod.snd = e :: e.children.flatMap fun c => c.walk.map Prod.snd := by
  rw [walk_eq, List.map_cons, map_snd_walkAll fun c _ here => c.map_snd_walkFrom here]

/-- A property of every part, said of the list of parts. -/
theorem every_iff_forall {P : Expr → Prop} {e : Expr} :
    Every P e ↔ ∀ part ∈ e.walk.map Prod.snd, P part := by
  constructor
  · intro h part hpart
    rcases List.mem_map.mp hpart with ⟨pair, hpair, rfl⟩
    exact h pair hpair
  · intro h pair hpair
    exact h pair.2 (List.mem_map_of_mem hpair)

/-- A property holds of every part when it holds of the expression and of every part of its
children. -/
theorem every_iff {P : Expr → Prop} {e : Expr} :
    Every P e ↔ P e ∧ ∀ c ∈ e.children, Every P c := by
  rw [every_iff_forall, map_snd_walk]
  constructor
  · intro h
    refine ⟨h e (List.mem_cons_self ..), fun c hc => every_iff_forall.mpr fun part hpart => ?_⟩
    exact h part (List.mem_cons_of_mem e (List.mem_flatMap.mpr ⟨c, hc, hpart⟩))
  · rintro ⟨he, hchildren⟩ part hpart
    rcases List.mem_cons.mp hpart with rfl | hpart
    · exact he
    · rcases List.mem_flatMap.mp hpart with ⟨c, hc, hpart⟩
      exact every_iff_forall.mp (hchildren c hc) part hpart

/-- Two properties of every part. -/
theorem Every.and {P Q : Expr → Prop} {e : Expr} (hP : Every P e) (hQ : Every Q e) :
    Every (fun part => P part ∧ Q part) e :=
  fun part hpart => ⟨hP part hpart, hQ part hpart⟩

/-- A weaker property of every part. -/
theorem Every.imp {P Q : Expr → Prop} {e : Expr} (h : Every P e) (himp : ∀ part, P part → Q part) :
    Every Q e :=
  fun part hpart => himp part.2 (h part hpart)

/-! ## What can be written -/

/-- An expression can be written when nothing is wrong with any of its parts. -/
theorem unparse_eq_ok {p : Profile} {e : Expr}
    (h : Every (fun part => part.renderError? = none) e) :
    e.unparse p = .ok (String.ofList (e.render p).text) := by
  have hnone : e.walk.findSome? (fun part => part.2.renderError?) = none :=
    List.findSome?_eq_none_iff.mpr h
  rw [unparse, hnone]

/-- An expression has a canonical form when nothing is wrong with any of its parts. -/
theorem dump_eq_ok {e : Expr} (h : Every (fun part => part.dumpError? = none) e) :
    e.dump = .ok (String.ofList e.dumpChars) := by
  have hnone : e.walk.findSome? (fun part => part.2.dumpError?) = none :=
    List.findSome?_eq_none_iff.mpr h
  rw [dump, hnone]

end Expr

end FormulaLint
