import FormulaLint.Proofs.Binding.Warnings
import FormulaLint.Proofs.Sorting

/-!
# A new global name

A symbol table is extended by a name that it does not have and that is no data source.  What scopes
are made of depends on the data sources of a table alone, so every part of an expression keeps its
scope, and only the names that look up the new one can be bound differently.  The warnings that go
away are those that miss the new name.

Main results:

- Theorem {lit}`SymbolTable.AddsGlobal.build_insert`: a table with one more symbol.
- Theorem {lit}`SymbolTable.AddsGlobal.scopeAt_eq`: a new global name leaves scopes alone.
- Theorem {lit}`NameReference.Warns.misses_iff`: which warnings miss a name.
- Theorem {lit}`resolve_new_global`: what a new global name changes.
-/

namespace FormulaLint

/-! ## Tables with one more name -/

namespace SymbolTable

/-- Sources with fields are data sources, unless they are declared as something else. -/
theorem lookup_build (symbols : OrderedMap String ReferenceKind)
    (fields : OrderedMap String (List String)) (name : String) :
    (build symbols fields).lookup name =
      (symbols.get? name).or (if name ∈ fields.keys then some .dataSource else none) := by
  unfold build lookup
  dsimp only
  induction fields.keys generalizing symbols with
  | nil => simp
  | cons source rest ih =>
      rw [List.foldl_cons, ih, OrderedMap.get?_insertIfNew]
      by_cases hsource : source = name
      · subst hsource
        cases symbols.get? source <;> simp
      · have hother : name ≠ source := fun h => hsource h.symm
        simp [hsource, hother]

/-- Whether one table has all that another one has, and a name more that is no data source. -/
structure AddsGlobal (symbols symbols' : SymbolTable) (n : String) : Prop where
  unknown : symbols.lookup n = none
  known : ∃ kind, symbols'.lookup n = some kind ∧ kind ≠ .dataSource
  others : ∀ name, name ≠ n → symbols'.lookup name = symbols.lookup name
  fields : ∀ source, symbols'.fieldsOf source = symbols.fieldsOf source

/-- A table with one more symbol. -/
theorem AddsGlobal.build_insert {declared : OrderedMap String ReferenceKind}
    {fields : OrderedMap String (List String)} {n : String} {kind : ReferenceKind}
    (hnew : (build declared fields).lookup n = none) (hkind : kind ≠ .dataSource) :
    (build declared fields).AddsGlobal (build (declared.insert n kind) fields) n where
  unknown := hnew
  known := ⟨kind, by simp [lookup_build, OrderedMap.get?_insert], hkind⟩
  others name hname := by
    simp [lookup_build, OrderedMap.get?_insert, Ne.symm hname]
  fields _ := rfl

end SymbolTable

/-- Whether an identifier looks up a name of the application, plainly or as a global name. -/
def Identifier.LooksUp (n : String) : Identifier → Prop
  | .plain name | .global name => name = n
  | .field _ _ | .context _ => False

variable {symbols symbols' : SymbolTable} {scope : Scope} {n : String}

/-! ## Scopes -/

namespace SymbolTable.AddsGlobal

/-- A new global name makes no data source and unmakes none. -/
theorem lookup_dataSource (h : symbols.AddsGlobal symbols' n) (name : String) :
    symbols'.lookup name = some .dataSource ↔ symbols.lookup name = some .dataSource := by
  by_cases hname : name = n
  · subst hname
    rcases h.known with ⟨kind, hknown, hkind⟩
    simp [hknown, h.unknown, hkind]
  · rw [h.others name hname]

/-- A new global name leaves the rows alone that an expression reads. -/
theorem sourceIn_eq (h : symbols.AddsGlobal symbols' n) (scope : Scope) (e : Expr) :
    e.sourceIn symbols' scope = e.sourceIn symbols scope := by
  fun_induction Expr.sourceIn symbols scope e with
  | case1 function first rest span hrows ih => rw [Expr.sourceIn, if_pos hrows, ih]
  | case2 function first rest span hrows => rw [Expr.sourceIn, if_neg hrows]
  | case3 identifier span whole =>
      rw [Expr.sourceIn]
      cases identifier <;> simp only [Identifier.sourceIn, h.lookup_dataSource]
  | case4 e hcall hname => rw [Expr.sourceIn] <;> assumption

/-- A new global name leaves the frames of rows alone. -/
theorem rowFrame_eq (h : symbols.AddsGlobal symbols' n) (source : Option String) :
    symbols'.rowFrame source = symbols.rowFrame source := by
  have hfields : symbols'.sourceFields source = symbols.sourceFields source :=
    congrArg source.bind (funext h.fields)
  rw [rowFrame, rowFrame, hfields]

/-- A new global name leaves scopes alone. -/
theorem scopeAt_eq (h : symbols.AddsGlobal symbols' n) (scope : Scope) (e : Expr) (path : Path) :
    e.scopeAt symbols' scope path = e.scopeAt symbols scope path := by
  simp only [Expr.scopeAt, h.rowFrame_eq, h.sourceIn_eq]

/-! ## References -/

variable {r : NameReference}

/-- A reference that does not look up the new name is bound as before. -/
theorem bind_eq (h : symbols.AddsGlobal symbols' n) (hother : ¬ r.identifier.LooksUp n)
    (scope : Scope) : r.bind symbols' scope = r.bind symbols scope := by
  cases hidentifier : r.identifier with
  | plain name =>
      rw [hidentifier] at hother
      rw [NameReference.bind_plain hidentifier, NameReference.bind_plain hidentifier,
        NameReference.bindPlain, NameReference.bindPlain, h.others name hother]
  | global name =>
      rw [hidentifier] at hother
      rw [NameReference.bind_global hidentifier, NameReference.bind_global hidentifier,
        NameReference.bindGlobal, NameReference.bindGlobal, h.others name hother]
  | field source name =>
      rw [NameReference.bind_field hidentifier, NameReference.bind_field hidentifier,
        NameReference.bindField, NameReference.bindField]
      simp only [h.lookup_dataSource, h.fields]
  | context keyword => simp only [NameReference.bind, hidentifier]

/-- A reference that looks up the new name is not warned about. -/
theorem warning_eq_none (h : symbols.AddsGlobal symbols' n) (hlooks : r.identifier.LooksUp n)
    (scope : Scope) : (r.bind symbols' scope).warning = none := by
  rcases h.known with ⟨kind, hknown, -⟩
  rw [Option.eq_none_iff_forall_ne_some]
  intro d hd
  cases NameReference.warns_iff.mp hd with
  | undefined identifier _ unknown _ | undeclared identifier unknown =>
      rw [identifier] at hlooks
      obtain rfl := hlooks
      simp [unknown] at hknown
  | missingField identifier | missingDeclaredField identifier | noSource identifier
  | noControl identifier | unavailable identifier | missingMember identifier =>
      rw [identifier] at hlooks
      exact hlooks

end SymbolTable.AddsGlobal

/-! ## Warnings -/

/-- Whether a warning says that a name is not defined. -/
def Diagnostic.misses (n : String) (d : Diagnostic) : Bool :=
  d.message = "Name '" ++ n ++ "' is not defined" ||
    d.message = "Global name '" ++ n ++ "' is not defined"

/-- The warnings that miss a name are those of the references that look it up. -/
theorem NameReference.Warns.misses_iff {r : NameReference} {d : Diagnostic}
    (h : r.Warns symbols scope d) : d.misses n = true ↔ r.identifier.LooksUp n := by
  -- every other warning starts with another word
  cases h with
  | undefined identifier | undeclared identifier | missingField identifier
  | missingDeclaredField identifier | noSource identifier | noControl identifier
  | unavailable identifier | missingMember identifier =>
      simp [Diagnostic.misses, Diagnostic.report, identifier, Identifier.LooksUp,
        ← String.toList_inj]

/-- A new global name takes those warnings of a reference away that miss it. -/
theorem SymbolTable.AddsGlobal.warning_eq (h : symbols.AddsGlobal symbols' n) (r : NameReference)
    (scope : Scope) : (r.bind symbols' scope).warning =
      (r.bind symbols scope).warning.filter fun d => !d.misses n := by
  have hmisses : ∀ d, (r.bind symbols scope).warning = some d →
      (d.misses n = true ↔ r.identifier.LooksUp n) := fun d hd =>
    (NameReference.warns_iff.mp hd).misses_iff
  by_cases hlooks : r.identifier.LooksUp n
  · rw [h.warning_eq_none hlooks]
    cases hwarning : (r.bind symbols scope).warning with
    | none => rfl
    | some d =>
        rw [Option.filter_some, (hmisses d hwarning).mpr hlooks]
        rfl
  · rw [h.bind_eq hlooks]
    cases hwarning : (r.bind symbols scope).warning with
    | none => rfl
    | some d =>
        have hkept : d.misses n = false := by simpa using mt (hmisses d hwarning).mp hlooks
        rw [Option.filter_some, hkept]
        rfl

/-- What a new global name changes.  A symbol table is extended by a name that it does not have, with
a kind other than that of data sources.  Then the same parts of an expression are bound, and every
name is bound as before that does not look the new name up, plainly or as a global name.  The warnings
are the same as before, without those that miss the new name; and these are the warnings that were
raised for the names that look it up. -/
theorem resolve_new_global (declared : OrderedMap String ReferenceKind)
    (fields : OrderedMap String (List String)) (n : String) (kind : ReferenceKind)
    (hnew : (SymbolTable.build declared fields).lookup n = none) (hkind : kind ≠ .dataSource)
    (scope : Scope) (e : Expr) :
    let symbols := SymbolTable.build declared fields
    let before := resolve symbols scope e
    let after := resolve (.build (declared.insert n kind) fields) scope e
    after.bindings.keys = before.bindings.keys ∧
      (∀ path r, (path, r) ∈ e.names → ¬ r.identifier.LooksUp n →
        after.bindings.get? path = before.bindings.get? path) ∧
      after.diagnostics = before.diagnostics.filter (fun d => !d.misses n) ∧
      ∀ path r d, (path, r) ∈ e.names → r.Warns symbols (e.scopeAt symbols scope path) d →
        (d.misses n = true ↔ r.identifier.LooksUp n) := by
  intro symbols before after
  have hadds : symbols.AddsGlobal (.build (declared.insert n kind) fields) n :=
    .build_insert hnew hkind
  refine ⟨?_, fun path r hname hother => ?_, ?_, fun path r d _ hwarns => hwarns.misses_iff⟩
  · rw [resolve_keys, resolve_keys]
  · rcases Expr.mem_names.mp hname with ⟨span, hat⟩
    have hafter := resolve_resolves (.build (declared.insert n kind) fields) scope e path _ _ _ _ hat
    have hbefore := resolve_resolves symbols scope e path _ _ _ _ hat
    rw [hadds.scopeAt_eq, hadds.bind_eq hother, ← hbefore] at hafter
    exact hafter
  · rw [resolve_diagnostics, resolve_diagnostics, sortDiagnostics, sortDiagnostics,
      filter_mergeSort Diagnostic.before_trans Diagnostic.before_total, List.filter_filterMap]
    simp only [hadds.scopeAt_eq, hadds.warning_eq]

/-- The formula {lit}`Filter(Orders, Filter(Rows, Status = Limit))`. -/
def filteredRows : Expr :=
  let name (text : String) : Expr := .name (.plain text) default [] default
  .call "Filter" [name "Orders",
    .call "Filter" [name "Rows", .binary .equal (name "Status") (name "Limit") default] []
      default] [] default

/-- When the table of the inner call is declared as a variable, what stands behind the table is bound
as before, and the warning about the table goes away. -/
theorem filteredRows_new_global :
    let fields : OrderedMap String (List String) := ⟨[("Orders", ["Status"])]⟩
    let before := resolve (.build .empty fields) {} filteredRows
    let after := resolve (.build (OrderedMap.insert .empty "Rows" .globalVariable) fields) {}
      filteredRows
    (SymbolTable.build .empty fields).lookup "Rows" = none ∧
      ReferenceKind.globalVariable ≠ .dataSource ∧
      after.bindings.get? [1, 1, 0] = before.bindings.get? [1, 1, 0] ∧
      after.bindings.get? [1, 1, 1] = before.bindings.get? [1, 1, 1] ∧
      after.diagnostics = before.diagnostics.filter (fun d => !d.misses "Rows") := by
  intro fields before after
  have hnew : (SymbolTable.build .empty fields).lookup "Rows" = none := by decide
  rcases resolve_new_global .empty fields "Rows" .globalVariable hnew (by decide) {} filteredRows
    with ⟨-, hbindings, hdiagnostics, -⟩
  refine ⟨hnew, by decide, ?_, ?_, hdiagnostics⟩
  · exact hbindings [1, 1, 0] ⟨.plain "Status", default, []⟩
      (Expr.mem_names.mpr ⟨default, rfl⟩) (by simp [Identifier.LooksUp])
  · exact hbindings [1, 1, 1] ⟨.plain "Limit", default, []⟩
      (Expr.mem_names.mpr ⟨default, rfl⟩) (by simp [Identifier.LooksUp])

end FormulaLint
