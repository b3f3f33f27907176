import FormulaLint.Proofs.Forms.Texts
import FormulaLint.Proofs.RoundTrip.Alike

/-!
# What a canonical form shows

The canonical form of an expression does not show everything.  A keyword for the current record or
control looks like a quoted name of the same spelling, and a field of a source without a name like
a global name.  Members behind a chain between parentheses look like members behind its last clause.
What is left is another expression, which is written the same way.

Main results:

- Theorem {lit}`Expr.dumpChars_canonical`: what a canonical form shows is written the same way.
- Theorem {lit}`Expr.every_canonical`: its shape.
-/

namespace FormulaLint

/-- An identifier as far as its text shows it. -/
def Identifier.canonical : Identifier → Identifier
  | plain name | context name => plain name
  | global name => global name
  | field source name => if source.isEmpty then global name else field source name

/-- What an identifier shows is written the same way. -/
theorem Identifier.render_canonical (identifier : Identifier) :
    identifier.canonical.render = identifier.render := by
  cases identifier with
  | field source name =>
      by_cases hempty : source.isEmpty = true
      · simp [Identifier.canonical, Identifier.render, hempty]
      · simp [Identifier.canonical, hempty]
  | _ => rfl

/-- What an identifier shows has nothing more to lose. -/
theorem Identifier.canonical_canonical (identifier : Identifier) :
    identifier.canonical.canonical = identifier.canonical := by
  cases identifier with
  | field source name =>
      by_cases hempty : source.isEmpty = true <;> simp [Identifier.canonical, hempty]
  | _ => rfl

namespace Expr

/-- Access members of an expression. -/
def access (members : List Segment) : Expr → Expr
  | name identifier identifierSpan own span => name identifier identifierSpan (own ++ members) span
  | member base own span => member base (own ++ members) span
  | e => member e members default

/-- Access members of the last one of some clauses. -/
def accessLast (members : List Segment) (es : List Expr) : List Expr :=
  es.dropLast ++ (es.getLast?.map (access members)).toList

/-- Access members of an expression; of a chain those of its last clause. -/
def attach (e : Expr) (members : List Segment) : Expr :=
  match e with
  | chain clauses span => chain (accessLast members clauses) span
  | e => e.access members

/-- An expression as far as its canonical form shows it. -/
def canonical (e : Expr) : Expr :=
  e.form Identifier.canonical attach

/-- The shape of a part of what canonical forms show, without its own parts. -/
def Showable : Expr → Prop
  | literal value span => span = default ∧ value.form = value ∧
      ∀ number written, value = .number number written → PlainNumeral written.toList
  | name identifier identifierSpan members span => span = default ∧ identifierSpan = default ∧
      identifier.canonical = identifier ∧ MembersAccessed members ∧
        members.map Segment.form = members
  | member base members span => span = default ∧ base.isReference = false ∧ base.isChain = false ∧
      members ≠ [] ∧ MembersAccessed members ∧ members.map Segment.form = members
  | call _ _ _ span | table _ span => span = default
  | record fields span => span = default ∧ ∀ field ∈ fields, field.span = default
  | unary op _ span => span = default ∧ (op.isPrefix = true ∨ op = .percent)
  | binary op _ _ span => span = default ∧ op.binding?.isSome = true
  | chain clauses span => span = default ∧ 2 ≤ clauses.length ∧ ∀ c ∈ clauses, c.isChain = false
  | hole => False

/-! ## The same text -/

/-- Places of members are not written. -/
theorem chainText_form (members : List Segment) :
    chainText (members.map Segment.form) = chainText members := by
  simp [chainText, List.flatMap_map, Segment.form]

/-- The text of an expression with members. -/
theorem dumpChars_access (members : List Segment) (e : Expr) :
    (e.access members).dumpChars = e.dumpChars ++ chainText members := by
  cases e <;> simp [access, dumpChars, chainText]

/-- Members of the last clause. -/
@[simp] theorem accessLast_snoc (members : List Segment) (es : List Expr) (e : Expr) :
    accessLast members (es ++ [e]) = es ++ [e.access members] := by
  simp [accessLast]

/-- Clauses are some clauses and a last one. -/
theorem exists_snoc {es : List Expr} (hne : es ≠ []) : ∃ init last, es = init ++ [last] :=
  ⟨es.dropLast, es.getLast hne, (List.dropLast_concat_getLast hne).symm⟩

/-- The texts of clauses with members behind the last one. -/
theorem dumpChars_accessLast (members : List Segment) {es : List Expr} (hne : es ≠ []) :
    [';', ' '].intercalate ((accessLast members es).map dumpChars) =
      [';', ' '].intercalate (es.map dumpChars) ++ chainText members := by
  rcases exists_snoc hne with ⟨init, last, rfl⟩
  rw [accessLast_snoc]
  by_cases hinit : init = []
  · subst hinit
    simp [dumpChars_access]
  · have hinit' : init.map dumpChars ≠ [] := by simpa using hinit
    rw [List.map_append, List.map_append, intercalate_append hinit' (by simp),
      intercalate_append hinit' (by simp)]
    simp [dumpChars_access]

/-- Anything but a chain gets the members itself. -/
theorem attach_of_not_chain {e : Expr} (h : e.isChain = false) (members : List Segment) :
    e.attach members = e.access members := by
  cases e with
  | chain _ _ => simp [isChain] at h
  | _ => rfl

/-- The text of an expression with members behind it. -/
theorem dumpChars_attach (members : List Segment) {e : Expr} (hne : e.clauses ≠ []) :
    (e.attach members).dumpChars = e.dumpChars ++ chainText members := by
  cases hchain : e.isChain with
  | false => rw [attach_of_not_chain hchain, dumpChars_access]
  | true =>
      cases e with
      | chain es span =>
          have hes : es ≠ [] := hne
          rw [attach, dumpChars_chain, dumpChars_chain, dumpChars_accessLast members hes]
      | _ => simp [isChain] at hchain

/-- The text of an expression is that of its clauses. -/
theorem dumpChars_clauses (e : Expr) :
    [';', ' '].intercalate (e.clauses.map dumpChars) = e.dumpChars := by
  cases e with
  | chain es span => rw [dumpChars_chain, clauses]
  | _ => simp [clauses]

/-- The texts of clauses of clauses. -/
theorem dumpChars_flatMap_clauses {es : List Expr} (hne : ∀ e ∈ es, e.clauses ≠ []) :
    [';', ' '].intercalate ((es.flatMap clauses).map dumpChars) =
      [';', ' '].intercalate (es.map dumpChars) := by
  induction es with
  | nil => rfl
  | cons e es ih =>
      have hrest := ih fun e' he' => hne e' (by simp [he'])
      by_cases hes : es = []
      · subst hes
        simp [dumpChars_clauses]
      · have hmore : es.flatMap clauses ≠ [] := by
          rcases List.exists_cons_of_ne_nil hes with ⟨e', es', rfl⟩
          simp [hne e' (by simp)]
        have hfirst : e.clauses.map dumpChars ≠ [] := by simpa using hne e (by simp)
        rw [List.flatMap_cons, List.map_append, intercalate_append hfirst (by simpa using hmore),
          hrest, dumpChars_clauses, List.map_cons,
          List.intercalate_cons_of_ne_nil (by simpa using hes)]

/-! ## The shape -/

/-- Expressions have clauses, empty chains apart. -/
theorem Showable.clauses_ne_nil {e : Expr} (h : e.Showable) : e.clauses ≠ [] := by
  cases e with
  | chain es span =>
      rcases h with ⟨-, hlength, -⟩
      rintro rfl
      simp at hlength
  | _ => simp [clauses]

/-- The clauses of what can be shown. -/
theorem Every.clauses {e : Expr} (h : e.Every Showable) :
    ∀ c ∈ e.clauses, c.Every Showable ∧ c.isChain = false := by
  intro c hc
  cases e with
  | chain es span =>
      rcases every_iff.mp h with ⟨⟨-, -, hflat⟩, hes⟩
      exact ⟨hes c hc, hflat c hc⟩
  | _ =>
      obtain rfl := List.mem_singleton.mp hc
      exact ⟨h, rfl⟩

/-- A chain of clauses that can be shown. -/
theorem every_chain {es : List Expr} (hlength : 2 ≤ es.length)
    (h : ∀ e ∈ es, e.Every Showable ∧ e.isChain = false) : (chain es default).Every Showable :=
  every_iff.mpr ⟨⟨rfl, hlength, fun e he => (h e he).2⟩, fun e he => (h e he).1⟩

/-- Accessing members keeps what can be shown, and makes no chain. -/
theorem Every.access {e : Expr} {members : List Segment} (h : e.Every Showable)
    (hchain : e.isChain = false) (hne : members ≠ []) (hmembers : MembersAccessed members)
    (hforms : members.map Segment.form = members) :
    (e.access members).Every Showable ∧ (e.access members).isChain = false := by
  rcases every_iff.mp h with ⟨hshape, hchildren⟩
  have happend : ∀ own : List Segment, MembersAccessed own → MembersAccessed (own ++ members) := by
    intro own hown segment hsegment
    exact (List.mem_append.mp hsegment).elim (hown segment) (hmembers segment)
  have hfirst : e.isReference = false → (member e members default).Every Showable := by
    intro hreference
    refine every_iff.mpr ⟨⟨rfl, hreference, hchain, hne, hmembers, hforms⟩, fun c hc => ?_⟩
    obtain rfl : c = e := by simpa [children] using hc
    exact h
  cases e with
  | name identifier identifierSpan own span =>
      rcases hshape with ⟨hspan, hplace, hcanonical, hown, hownForms⟩
      refine ⟨every_iff.mpr ⟨⟨hspan, hplace, hcanonical, happend own hown, ?_⟩, hchildren⟩, rfl⟩
      rw [List.map_append, hownForms, hforms]
  | member base own span =>
      rcases hshape with ⟨hspan, hreference, hbase, hownNe, hown, hownForms⟩
      refine ⟨every_iff.mpr ⟨⟨hspan, hreference, hbase, by simp [hownNe], happend own hown, ?_⟩,
        hchildren⟩, rfl⟩
      rw [List.map_append, hownForms, hforms]
  | chain es span => simp [isChain] at hchain
  | literal _ _ | call _ _ _ _ | record _ _ | table _ _ | unary _ _ _ | binary _ _ _ _ | hole =>
      exact ⟨hfirst rfl, rfl⟩

/-- Members behind an expression keep what can be shown. -/
theorem Every.attach {e : Expr} {members : List Segment} (h : e.Every Showable)
    (hne : members ≠ []) (hmembers : MembersAccessed members)
    (hforms : members.map Segment.form = members) : (e.attach members).Every Showable := by
  cases hchain : e.isChain with
  | false =>
      rw [attach_of_not_chain hchain]
      exact (h.access hchain hne hmembers hforms).1
  | true =>
      cases e with
      | chain es span =>
          have hclauses : ∀ c ∈ es, c.Every Showable ∧ c.isChain = false := h.clauses
          rcases every_iff.mp h with ⟨⟨hspan, hlength, -⟩, -⟩
          subst hspan
          have hes : es ≠ [] := by
            rintro rfl
            simp at hlength
          rcases exists_snoc hes with ⟨init, last, rfl⟩
          rw [Expr.attach, accessLast_snoc]
          have hlast := hclauses last (by simp)
          refine every_chain (by simpa using hlength) (forall_mem_snoc (fun c hc => ?_)
            (hlast.1.access hlast.2 hne hmembers hforms))
          exact hclauses c (by simp [hc])
      | _ => simp [isChain] at hchain

/-- The members of a chain without their places. -/
theorem map_form_form (members : List Segment) :
    (members.map Segment.form).map Segment.form = members.map Segment.form := by
  simp [Segment.form]

/-- Members are accessed alike without their places. -/
theorem membersAccessed_form {members : List Segment} (h : MembersAccessed members) :
    MembersAccessed (members.map Segment.form) := by
  intro segment hsegment
  rcases List.mem_map.mp hsegment with ⟨own, hown, rfl⟩
  exact h own hown

/-- The clauses of some expressions are no fewer than these. -/
theorem length_le_flatMap_clauses {es : List Expr} (hne : ∀ e ∈ es, e.clauses ≠ []) :
    es.length ≤ (es.flatMap clauses).length := by
  induction es with
  | nil => simp
  | cons e es ih =>
      have hfirst := List.length_pos_iff.mpr (hne e (by simp))
      have hrest := ih fun e' he' => hne e' (by simp [he'])
      rw [List.flatMap_cons, List.length_append, List.length_cons]
      omega

/-- What an expression shows can be shown. -/
theorem every_canonical {e : Expr} (h : e.Every Shaped) : e.canonical.Every Showable := by
  induction e using children_induct with
  | step e ih =>
      rcases every_iff.mp h with ⟨hshape, hchildren⟩
      have hparts : ∀ c ∈ e.children, (c.form Identifier.canonical attach).Every Showable :=
        fun c hc => ih c hc (hchildren c hc)
      cases e with
      | literal value span =>
          have hnumeral : ∀ number written, value = .number number written →
              Numeral written.toList := by
            rintro number written rfl
            exact hshape
          show (literal value.form default).Every Showable
          refine every_iff.mpr ⟨⟨rfl, Literal.form_form hnumeral, ?_⟩, by simp [children]⟩
          intro number written hwritten
          cases value with
          | number value text =>
              obtain ⟨-, rfl⟩ := Literal.number.inj hwritten
              rw [String.toList_ofList]
              exact (hnumeral value text rfl).plain
          | logical _ | text _ => simp [Literal.form] at hwritten
      | name identifier identifierSpan members span =>
          show (name identifier.canonical default (members.map Segment.form) default).Every Showable
          refine every_iff.mpr ⟨⟨rfl, rfl, identifier.canonical_canonical,
            membersAccessed_form hshape, map_form_form members⟩, by simp [children]⟩
      | member base members span =>
          rcases hshape with ⟨hne, -, -, hmembers⟩
          exact (hparts base (by simp [children])).attach (by simpa using hne)
            (membersAccessed_form hmembers) (map_form_form members)
      | call function arguments qualifiers span =>
          rw [canonical, form, formAll_eq_map]
          exact every_iff.mpr ⟨rfl, List.forall_mem_map.mpr hparts⟩
      | record fields span =>
          rw [canonical, form, formFields_eq_map]
          refine every_iff.mpr ⟨⟨rfl, List.forall_mem_map.mpr fun _ _ => rfl⟩, fun c hc => ?_⟩
          rw [children, List.map_map] at hc
          rcases List.mem_map.mp hc with ⟨field, hfield, rfl⟩
          exact hparts field.value (List.mem_map_of_mem hfield)
      | table elements span =>
          rw [canonical, form, formAll_eq_map]
          exact every_iff.mpr ⟨rfl, List.forall_mem_map.mpr hparts⟩
      | unary op operand span =>
          rw [canonical, form]
          exact every_iff.mpr ⟨⟨rfl, hshape⟩, List.forall_mem_singleton.mpr
            (hparts operand (by simp [children]))⟩
      | binary op left right span =>
          rw [canonical, form]
          exact every_iff.mpr ⟨⟨rfl, hshape⟩, List.forall_mem_cons.mpr
            ⟨hparts left (by simp [children]), List.forall_mem_singleton.mpr
              (hparts right (by simp [children]))⟩⟩
      | chain es span =>
          have hne : ∀ c ∈ es.map (form Identifier.canonical attach), c.clauses ≠ [] :=
            List.forall_mem_map.mpr fun c hc => (every_iff.mp (hparts c hc)).1.clauses_ne_nil
          have hlength := length_le_flatMap_clauses hne
          rw [List.length_map] at hlength
          rw [canonical, form, formAll_eq_map]
          refine every_chain (Nat.le_trans hshape hlength) fun c hc => ?_
          rcases List.mem_flatMap.mp hc with ⟨clause, hclause, hc⟩
          rcases List.mem_map.mp hclause with ⟨own, hown, rfl⟩
          exact (hparts own hown).clauses c hc
      | hole => exact absurd hshape id

/-- What an expression shows is written the same way. -/
theorem dumpChars_canonical {e : Expr} (h : e.Every Shaped) :
    e.canonical.dumpChars = e.dumpChars := by
  induction e using children_induct with
  | step e ih =>
      rcases every_iff.mp h with ⟨hshape, hchildren⟩
      have hparts : ∀ c ∈ e.children,
          (c.form Identifier.canonical attach).dumpChars = c.dumpChars :=
        fun c hc => ih c hc (hchildren c hc)
      have hne : ∀ c ∈ e.children, (c.form Identifier.canonical attach).clauses ≠ [] := fun c hc =>
        (every_iff.mp (every_canonical (hchildren c hc))).1.clauses_ne_nil
      have hall : ∀ es : List Expr, (∀ c ∈ es, c ∈ e.children) →
          (es.map (form Identifier.canonical attach)).map dumpChars = es.map dumpChars := by
        intro es hes
        rw [List.map_map]
        exact List.map_congr_left fun c hc => hparts c (hes c hc)
      cases e with
      | literal value span =>
          cases value with
          | number number written =>
              have hnumeral : Numeral written.toList := hshape
              have hplain := hnumeral.plain
              have hwritten : (String.ofList (plainNumber written.toList)).toList ≠ [] := by
                rw [String.toList_ofList]
                exact hplain.numeral.ne_nil
              show numberText _ _ '.' = numberText number written '.'
              rw [numberText_eq hwritten, numberText_eq hnumeral.ne_nil, String.toList_ofList,
                hplain.plainNumber_eq]
          | logical _ | text _ => rfl
      | name identifier identifierSpan members span =>
          show identifier.canonical.render ++ _ = identifier.render ++ _
          rw [identifier.render_canonical, chainText_form]
      | member base members span =>
          rw [canonical, form, dumpChars_attach _ (hne base (by simp [children])),
            hparts base (by simp [children]), chainText_form, dumpChars]
      | call function arguments qualifiers span =>
          rw [canonical, form, dumpChars, dumpChars, dumpAll_eq_map, dumpAll_eq_map,
            formAll_eq_map, hall arguments fun c hc => hc]
      | record fields span =>
          rw [canonical, form, dumpChars, dumpChars, dumpFields_eq_map, dumpFields_eq_map,
            formFields_eq_map, List.map_map]
          have hfields : ∀ field ∈ fields, nameText field.name ++
              ':' :: ' ' :: (field.value.form Identifier.canonical attach).dumpChars =
                nameText field.name ++ ':' :: ' ' :: field.value.dumpChars := fun field hfield => by
            rw [hparts field.value (List.mem_map_of_mem hfield)]
          exact congrArg (fun texts => '\x7b' :: ([',', ' '].intercalate texts ++ ['\x7d']))
            (List.map_congr_left hfields)
      | table elements span =>
          rw [canonical, form, dumpChars, dumpChars, dumpAll_eq_map, dumpAll_eq_map,
            formAll_eq_map, hall elements fun c hc => hc]
      | unary op operand span =>
          rw [canonical, form, dumpChars, dumpChars, hparts operand (by simp [children])]
      | binary op left right span =>
          rw [canonical, form, dumpChars, dumpChars, hparts left (by simp [children]),
            hparts right (by simp [children])]
      | chain es span =>
          have hclauses : ∀ c ∈ es.map (form Identifier.canonical attach), c.clauses ≠ [] :=
            List.forall_mem_map.mpr hne
          rw [canonical, form, formAll_eq_map, dumpChars_chain, dumpChars_chain,
            dumpChars_flatMap_clauses hclauses, hall es fun c hc => hc]
      | hole => exact absurd hshape id

end Expr

end FormulaLint
