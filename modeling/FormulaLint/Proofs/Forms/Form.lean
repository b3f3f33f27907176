import FormulaLint.Proofs.Lexing.Numerals
import FormulaLint.Proofs.Parts

/-!
# Forms of expressions

The form of an expression is what is left of it without places: numbers keep the text that is
written for them instead of their value, and a chain that is a clause of another chain is part of
it.  How names are to be read, and where the members of an expression go, is open.

Main results:

- Theorem {lit}`Expr.form_chain`: the form of a chain.
- Theorem {lit}`formAll_eq_map`: the forms of a list of expressions.
- Theorem {lit}`Expr.reread_eq_bare`: names that are told by their texts are read back as themselves.
-/

namespace FormulaLint

/-- A member without its place. -/
def Segment.form (segment : Segment) : Segment :=
  { segment with span := default }

/-- A literal without what is not written for it. -/
def Literal.form : Literal → Literal
  | number _ written => number (.whole 0) (String.ofList (plainNumber written.toList))
  | logical value => logical value
  | text value => text value

/-- The form of a literal has nothing more to lose. -/
theorem Literal.form_form {value : Literal}
    (h : ∀ number written, value = .number number written → Numeral written.toList) :
    value.form.form = value.form := by
  cases value with
  | number number written =>
      have hplain := (h number written rfl).plain
      simp [Literal.form, hplain.plainNumber_eq]
  | _ => rfl

/-- An identifier as it is read back from its text: a keyword for the current record or control is
read as such, and a field of a source without a name as a global name. -/
def Identifier.reread : Identifier → Identifier
  | plain name | context name => if name ∈ contextKeywords then context name else plain name
  | global name => global name
  | field source name => if source.isEmpty then global name else field source name

/-- An identifier that is read back is written the same way. -/
theorem Identifier.render_reread (identifier : Identifier) :
    identifier.reread.render = identifier.render := by
  cases identifier with
  | plain name | context name =>
      by_cases hkeyword : name ∈ contextKeywords <;>
        simp [Identifier.reread, Identifier.render, hkeyword]
  | global name => rfl
  | field source name =>
      by_cases hempty : source.isEmpty = true <;>
        simp [Identifier.reread, Identifier.render, hempty]

namespace Expr

/-- The clauses of a chain; anything else is a clause by itself. -/
def clauses : Expr → List Expr
  | chain clauses _ => clauses
  | e => [e]

/-- Whether an expression is a chain. -/
def isChain : Expr → Bool
  | chain _ _ => true
  | _ => false

/-- What is no chain is its own clause. -/
theorem clauses_of_not_chain {e : Expr} (h : e.isChain = false) : e.clauses = [e] := by
  cases e with
  | chain _ _ => simp [isChain] at h
  | _ => rfl

end Expr

mutual

/-- The form of an expression, with every name as it is to be read and members where they are to be
put. -/
def Expr.form (read : Identifier → Identifier) (attach : Expr → List Segment → Expr) : Expr → Expr
  | .literal value _ => .literal value.form default
  | .name identifier _ members _ =>
      .name (read identifier) default (members.map Segment.form) default
  | .member base members _ => attach (base.form read attach) (members.map Segment.form)
  | .call function arguments qualifiers _ =>
      .call function (formAll read attach arguments) qualifiers default
  | .record fields _ => .record (formFields read attach fields) default
  | .table elements _ => .table (formAll read attach elements) default
  | .unary op operand _ => .unary op (operand.form read attach) default
  | .binary op left right _ =>
      .binary op (left.form read attach) (right.form read attach) default
  | .chain clauses _ => .chain ((formAll read attach clauses).flatMap Expr.clauses) default
  | .hole => .hole

/-- The forms of a list of expressions. -/
def formAll (read : Identifier → Identifier) (attach : Expr → List Segment → Expr) :
    List Expr → List Expr
  | [] => []
  | e :: rest => e.form read attach :: formAll read attach rest

/-- The forms of a list of fields. -/
def formFields (read : Identifier → Identifier) (attach : Expr → List Segment → Expr) :
    List Field → List Field
  | [] => []
  | .mk name value _ :: rest =>
      .mk name (value.form read attach) default :: formFields read attach rest

end

namespace Expr

/-- Members behind an expression, without a place. -/
def withMembers (base : Expr) (members : List Segment) : Expr :=
  member base members default

/-- The form of an expression as it is. -/
def bare (e : Expr) : Expr :=
  e.form id withMembers

/-- The form of an expression as it is read back from its text. -/
def reread (e : Expr) : Expr :=
  e.form Identifier.reread withMembers

end Expr

section

variable (read : Identifier → Identifier) (attach : Expr → List Segment → Expr)

/-- The forms of a list of expressions are those of each of them. -/
theorem formAll_eq_map (es : List Expr) : formAll read attach es = es.map (Expr.form read attach) := by
  induction es with
  | nil => rfl
  | cons e rest ih => rw [formAll, ih, List.map_cons]

/-- The forms of a list of fields are those of their values, under the same names. -/
theorem formFields_eq_map (fields : List Field) :
    formFields read attach fields = fields.map fun field =>
      .mk field.name (field.value.form read attach) default := by
  induction fields with
  | nil => rfl
  | cons field rest ih =>
      rcases field with ⟨name, value, span⟩
      rw [formFields, ih, List.map_cons]
      rfl

/-- The form of a chain has the clauses of the forms of its clauses. -/
theorem Expr.form_chain (es : List Expr) (span : Span) :
    (Expr.chain es span).form read attach =
      .chain (es.flatMap fun e => (e.form read attach).clauses) default := by
  rw [Expr.form, formAll_eq_map, List.flatMap_map]

end

/-! ## Forms that are read back -/

namespace Expr

/-- Whether a name is read back from its text as the same name. -/
def PlainlyNamed : Expr → Prop
  | name identifier _ _ _ => identifier.reread = identifier
  | _ => True

instance : DecidablePred PlainlyNamed
  | name identifier _ _ _ => inferInstanceAs (Decidable (identifier.reread = identifier))
  | literal _ _ | member _ _ _ | call _ _ _ _ | record _ _ | table _ _ | unary _ _ _
  | binary _ _ _ _ | chain _ _ | hole => .isTrue trivial

/-- Names that are told by their texts are read back as themselves. -/
theorem reread_eq_bare {e : Expr} (h : e.Every PlainlyNamed) : e.reread = e.bare := by
  induction e using children_induct with
  | step e ih =>
      rcases every_iff.mp h with ⟨hnamed, hchildren⟩
      have hparts : ∀ c ∈ e.children, c.form Identifier.reread withMembers = c.form id withMembers :=
        fun c hc => ih c hc (hchildren c hc)
      have hall : ∀ es : List Expr, (∀ c ∈ es, c ∈ e.children) →
          es.map (form Identifier.reread withMembers) = es.map (form id withMembers) :=
        fun es hes => List.map_congr_left fun c hc => hparts c (hes c hc)
      cases e with
      | literal _ _ | hole => rfl
      | name identifier identifierSpan members span =>
          have hidentifier : identifier.reread = identifier := hnamed
          rw [reread, bare, form, form, hidentifier, id]
      | member base members span =>
          rw [reread, bare, form, form, hparts base (by simp [children])]
      | call function arguments qualifiers span =>
          rw [reread, bare, form, form, formAll_eq_map, formAll_eq_map, hall arguments fun c hc => hc]
      | record fields span =>
          rw [reread, bare, form, form, formFields_eq_map, formFields_eq_map]
          refine congrArg (record · default) (List.map_congr_left fun field hfield => ?_)
          rw [hparts field.value (List.mem_map_of_mem hfield)]
      | table elements span =>
          rw [reread, bare, form, form, formAll_eq_map, formAll_eq_map, hall elements fun c hc => hc]
      | unary op operand span =>
          rw [reread, bare, form, form, hparts operand (by simp [children])]
      | binary op left right span =>
          rw [reread, bare, form, form, hparts left (by simp [children]),
            hparts right (by simp [children])]
      | chain es span =>
          rw [reread, bare, form, form, formAll_eq_map, formAll_eq_map, hall es fun c hc => hc]

end Expr

end FormulaLint
