import FormulaLint.Proofs.Binding.Scopes

/-!
# What names are warned about

Resolving goes through the names of an expression in walking order, and every name is bound once, in
its own scope.  A name is warned about when its whole search fails, when it is a keyword for a record
or control that is not there, and when the record that a keyword stands for is known not to have the
member that is accessed.  These cases exclude each other, so that no name is warned about twice.

Main results:

- Theorem {lit}`Expr.bindNames_eq_names`: the names are bound in walking order, each in its own scope.
- Theorem {lit}`NameReference.warns_iff`: when a reference is warned about.
- Theorem {lit}`resolve_warns_once`: the bindings and warnings of an expression, name by name.
-/

namespace FormulaLint

/-! ## Names in walking order -/

namespace Expr

/-- The reference that an expression is, if it starts from a name. -/
def nameReference? : Expr → Option NameReference
  | name identifier identifierSpan members _ => some ⟨identifier, identifierSpan, members⟩
  | _ => none

/-- The references of an expression that start from a name, each with its path, in walking order. -/
def names (e : Expr) : List (Path × NameReference) :=
  e.walk.filterMap fun part => part.2.nameReference?.map fun r => (part.1, r)

variable {e : Expr} {path : Path} {r : NameReference}

/-- What starts from a name is a name with its members. -/
theorem nameReference?_eq_some_iff :
    e.nameReference? = some r ↔ ∃ span, e = .name r.identifier r.span r.chain span := by
  cases e with
  | name identifier identifierSpan members span =>
      rcases r with ⟨identifier', identifierSpan', members'⟩
      simp [nameReference?]
  | _ => simp [nameReference?]

/-- The names of an expression are the parts that are names. -/
theorem mem_names : (path, r) ∈ e.names ↔
    ∃ span, e.at? path = some (.name r.identifier r.span r.chain span) := by
  simp only [names, List.mem_filterMap, Prod.exists, Option.map_eq_some_iff, Prod.mk.injEq]
  constructor
  · rintro ⟨_, part, hpart, _, hname, rfl, rfl⟩
    rcases mem_walkFrom.mp hpart with ⟨rel, rfl, hat⟩
    rcases nameReference?_eq_some_iff.mp hname with ⟨span, rfl⟩
    exact ⟨span, hat⟩
  · rintro ⟨span, hat⟩
    exact ⟨path, _, mem_walkFrom.mpr ⟨path, rfl, hat⟩, r, rfl, rfl, rfl⟩

/-- The names of an expression are itself, if it is one, and those of its children. -/
theorem names_eq (e : Expr) :
    e.names = (e.nameReference?.map fun r => ([], r)).toList ++
      e.children.zipIdx.flatMap fun c => c.1.names.map fun n => (c.2 :: n.1, n.2) := by
  rw [names, walk_eq, List.filterMap_cons, walkAll_eq_flatMap, List.filterMap_flatMap]
  have hchildren : ∀ c : Expr × Nat,
      ((c.1.walkFrom ([] ++ [c.2])).filterMap fun part =>
        part.2.nameReference?.map fun r => (part.1, r)) =
          c.1.names.map fun n => (c.2 :: n.1, n.2) := by
    intro c
    rw [walkFrom_eq_map, List.filterMap_map, names, List.map_filterMap]
    refine List.filterMap_congr fun part _ => ?_
    simp [Function.comp_def]
  simp only [hchildren]
  cases e.nameReference? <;> rfl

/-- No name is listed twice. -/
theorem nodup_names (e : Expr) : (e.names.map (·.1)).Nodup := by
  rw [List.Nodup, List.pairwise_map, names, List.pairwise_filterMap]
  refine (e.pairwise_walkFrom []).imp fun {a b} hpath m hm n hn => ?_
  rcases Option.map_eq_some_iff.mp hm with ⟨_, -, rfl⟩
  rcases Option.map_eq_some_iff.mp hn with ⟨_, -, rfl⟩
  exact hpath

/-- The names of an expression are bound in walking order, each in its own scope. -/
theorem bindNames_eq_names (symbols : SymbolTable) (scope : Scope) (here : Path) (e : Expr) :
    e.bindNames symbols scope here = e.names.map fun n =>
      (here ++ n.1, n.2.bind symbols (e.scopeAt symbols scope n.1)) := by
  induction e using children_induct generalizing scope here with
  | step e ih =>
      by_cases hname : ∃ identifier identifierSpan chain span,
          e = .name identifier identifierSpan chain span
      · rcases hname with ⟨identifier, identifierSpan, chain, span, rfl⟩
        rw [names_eq]
        simp [bindNames, nameReference?, children]
      · have hsource : ∀ c ∈ e.children,
            tableSource (bindingsOf (c.bindNames symbols scope (here ++ [0]))) (here ++ [0]) c =
              c.sourceIn symbols scope :=
          fun c _ => tableSource_eq_sourceIn (resolves_bindingsOf fun _ _ => mem_bindNames)
        have hnone : e.nameReference? = none := by
          rw [Option.eq_none_iff_forall_ne_some]
          intro r hr
          rcases nameReference?_eq_some_iff.mp hr with ⟨span, rfl⟩
          exact hname ⟨_, _, _, _, rfl⟩
        rw [bindNames_eq (fun _ _ _ _ h => hname ⟨_, _, _, _, h⟩) hsource, names_eq, hnone,
          Option.map_none, Option.toList_none, List.nil_append, List.map_flatMap]
        refine List.flatMap_congr fun c hc => ?_
        have hchild := List.mem_zipIdx_iff_getElem?.mp hc
        rw [ih c.1 (List.mem_of_getElem? hchild), List.map_map]
        refine List.map_congr_left fun n _ => ?_
        simp [scopeAt_cons hchild]

end Expr

/-! ## When a name is warned about -/

/-- What a warning calls the record of a frame. -/
def Frame.owner (frame : Frame) : String :=
  match frame.source with
  | some source => if source.isEmpty then "the current record" else "'" ++ source ++ "'"
  | none => "the current record"

/-- The warnings that a reference by name is given in a scope. -/
inductive NameReference.Warns (symbols : SymbolTable) (scope : Scope) (r : NameReference) :
    Diagnostic → Prop
  /-- A plain name that no frame has or may have, and that is not declared. -/
  | undefined {name : String} (identifier : r.identifier = .plain name)
      (unshadowed : ∀ frame ∈ scope.frames, ¬ frame.hasField name = true)
      (unknown : symbols.lookup name = none)
      (closed : ∀ frame ∈ scope.frames, ¬ frame.fields = none) :
      Warns symbols scope r
        (.report .unresolvedIdentifier r.span ("Name '" ++ name ++ "' is not defined"))
  /-- A global name that is not declared. -/
  | undeclared {name : String} (identifier : r.identifier = .global name)
      (unknown : symbols.lookup name = none) :
      Warns symbols scope r
        (.report .unresolvedIdentifier r.span ("Global name '" ++ name ++ "' is not defined"))
  /-- A field that the outermost frame over its source is known not to have. -/
  | missingField {source name : String} {k : Nat} {frame : Frame} {fields : List String}
      (identifier : r.identifier = .field source name)
      (row : Outermost (·.source = some source) scope.frames k frame)
      (fieldsKnown : frame.fields = some fields) (unlisted : name ∉ fields) :
      Warns symbols scope r
        (.report .unresolvedIdentifier r.span
          ("Data source '" ++ source ++ "' has no field '" ++ name ++ "'"))
  /-- A field that a declared data source without a frame is known not to have. -/
  | missingDeclaredField {source name : String} {fields : List String}
      (identifier : r.identifier = .field source name)
      (noRow : ∀ frame ∈ scope.frames, ¬ frame.source = some source)
      (known : symbols.lookup source = some .dataSource)
      (fieldsKnown : symbols.fieldsOf source = some fields) (unlisted : name ∉ fields) :
      Warns symbols scope r
        (.report .unresolvedIdentifier r.span
          ("Data source '" ++ source ++ "' has no field '" ++ name ++ "'"))
  /-- A field of what is no data source. -/
  | noSource {source name : String} (identifier : r.identifier = .field source name)
      (noRow : ∀ frame ∈ scope.frames, ¬ frame.source = some source)
      (unknown : symbols.lookup source ≠ some .dataSource) :
      Warns symbols scope r
        (.report .unresolvedIdentifier r.span ("Data source '" ++ source ++ "' is not defined"))
  /-- A keyword for a control that is not there. -/
  | noControl {keyword : String} (identifier : r.identifier = .context keyword)
      (missing : keyword = "Self" ∧ scope.self = none ∨
        keyword = "Parent" ∧ scope.parent = none) :
      Warns symbols scope r
        (.report .contextUnavailable r.span ("'" ++ keyword ++ "' has no control in this context"))
  /-- A keyword for an item or record that is not there. -/
  | unavailable {keyword : String} (identifier : r.identifier = .context keyword)
      (notSelf : keyword ≠ "Self") (notParent : keyword ≠ "Parent")
      (noRow : ∀ frame ∈ scope.frames, ¬ frame.Answers keyword) :
      Warns symbols scope r
        (.report .contextUnavailable r.span
          ("'" ++ keyword ++ "' is only available inside a record scope"))
  /-- A keyword for an item or record that is known not to have the member.  The warning stands at the
  member. -/
  | missingMember {keyword : String} {k : Nat} {frame : Frame} {segment : Segment}
      {others : List Segment} {fields : List String}
      (identifier : r.identifier = .context keyword) (notSelf : keyword ≠ "Self")
      (notParent : keyword ≠ "Parent") (row : Innermost (·.Answers keyword) scope.frames k frame)
      (member : r.chain = segment :: others) (fieldsKnown : frame.fields = some fields)
      (unlisted : segment.name ∉ fields) :
      Warns symbols scope r
        (.report .unresolvedIdentifier segment.span
          ("Field '" ++ segment.name ++ "' does not exist in " ++ frame.owner))

namespace NameReference

variable {symbols : SymbolTable} {scope : Scope} {r : NameReference} {d : Diagnostic}

/-- A reference that a warning belongs to is given the warning. -/
theorem Warns.warning_eq (h : r.Warns symbols scope d) :
    (r.bind symbols scope).warning = some d := by
  cases h with
  | undefined identifier unshadowed unknown closed =>
      rw [bind_plain identifier, bindPlain, Scope.frameWith_eq_none.mpr unshadowed, unknown,
        Scope.openFrame_eq_none.mpr closed]
      rfl
  | undeclared identifier unknown =>
      rw [bind_global identifier, bindGlobal, unknown]
      rfl
  | missingField identifier row fieldsKnown unlisted =>
      rw [bind_field identifier, bindField, Scope.frameOver_iff.mpr ⟨_, row⟩]
      simp [fieldsKnown, bindField.check, unlisted, unresolved]
  | missingDeclaredField identifier noRow known fieldsKnown unlisted =>
      rw [bind_field identifier, bindField, Scope.frameOver_eq_none.mpr noRow]
      simp [known, fieldsKnown, bindField.check, unlisted, unresolved]
  | noSource identifier noRow unknown =>
      rw [bind_field identifier, bindField, Scope.frameOver_eq_none.mpr noRow]
      simp [unknown, unresolved]
  | noControl identifier missing =>
      rcases missing with ⟨rfl, missing⟩ | ⟨rfl, missing⟩
      · rw [bind_self identifier, missing]
        rfl
      · rw [bind_parent identifier, missing]
        rfl
  | unavailable identifier notSelf notParent noRow =>
      rw [bind_record identifier notSelf notParent, Scope.innermost_eq_none.mpr noRow]
      rfl
  | missingMember identifier notSelf notParent row member fieldsKnown unlisted =>
      rw [bind_record identifier notSelf notParent, Scope.innermost_iff.mpr ⟨_, row⟩]
      simp only [bindRecord, member, fieldsKnown]
      rw [if_neg (by simpa using unlisted)]
      rfl

/-- A plain name is warned about when its whole search fails. -/
theorem warns_of_plain {name : String} (identifier : r.identifier = .plain name)
    (h : (r.bind symbols scope).warning = some d) : r.Warns symbols scope d := by
  rw [bind_plain identifier, bindPlain] at h
  cases hframe : scope.frameWith name with
  | some frame => simp [hframe, fieldOf] at h
  | none =>
      cases hkind : symbols.lookup name with
      | some kind => simp [hframe, hkind, declared] at h
      | none =>
          cases hopen : scope.openFrame with
          | some frame => simp [hframe, hkind, hopen, fieldOf] at h
          | none =>
              simp only [hframe, hkind, hopen, unresolved, Option.some.injEq] at h
              subst h
              exact .undefined identifier (Scope.frameWith_eq_none.mp hframe) hkind
                (Scope.openFrame_eq_none.mp hopen)

/-- A global name is warned about when it is not declared. -/
theorem warns_of_global {name : String} (identifier : r.identifier = .global name)
    (h : (r.bind symbols scope).warning = some d) : r.Warns symbols scope d := by
  rw [bind_global identifier, bindGlobal] at h
  cases hkind : symbols.lookup name with
  | some kind => simp [hkind, declared] at h
  | none =>
      simp only [hkind, unresolved, Option.some.injEq] at h
      subst h
      exact .undeclared identifier hkind

/-- A field is warned about when its source is known not to have it. -/
theorem unlisted_of_check {source name : String} {fields : Option (List String)}
    {frame : Option Frame} (h : (bindField.check r source name fields frame).warning = some d) :
    ∃ known, fields = some known ∧ name ∉ known ∧
      d = .report .unresolvedIdentifier r.span
        ("Data source '" ++ source ++ "' has no field '" ++ name ++ "'") := by
  rcases fields_cases fields name with listed | ⟨known, rfl, unlisted⟩
  · simp [bindField_check_listed listed] at h
  · refine ⟨known, rfl, unlisted, ?_⟩
    simpa [bindField.check, unlisted, unresolved, eq_comm] using h

/-- A field of a named source is warned about when its whole search fails. -/
theorem warns_of_field {source name : String} (identifier : r.identifier = .field source name)
    (h : (r.bind symbols scope).warning = some d) : r.Warns symbols scope d := by
  rw [bind_field identifier, bindField] at h
  cases hframe : scope.frameOver source with
  | some frame =>
      rw [hframe] at h
      rcases Scope.frameOver_iff.mp hframe with ⟨k, row⟩
      rcases unlisted_of_check h with ⟨known, hknown, unlisted, rfl⟩
      exact .missingField identifier row hknown unlisted
  | none =>
      rw [hframe] at h
      have noRow := Scope.frameOver_eq_none.mp hframe
      by_cases hsource : symbols.lookup source = some .dataSource
      · simp only [hsource, ↓reduceIte] at h
        rcases unlisted_of_check h with ⟨known, hknown, unlisted, rfl⟩
        exact .missingDeclaredField identifier noRow hsource hknown unlisted
      · simp only [hsource, ↓reduceIte, unresolved, Option.some.injEq] at h
        subst h
        exact .noSource identifier noRow hsource

/-- A keyword for a control is warned about when there is no control. -/
theorem none_of_bindControl {keyword : String} {control : Option String}
    (h : (r.bindControl keyword control).warning = some d) :
    control = none ∧ d = .report .contextUnavailable r.span
      ("'" ++ keyword ++ "' has no control in this context") := by
  cases control with
  | none => exact ⟨rfl, (Option.some.inj h).symm⟩
  | some control => simp [bindControl] at h

/-- A keyword is warned about when there is no control, item or record for it, or a member of the
record is missing. -/
theorem warns_of_context {keyword : String} (identifier : r.identifier = .context keyword)
    (h : (r.bind symbols scope).warning = some d) : r.Warns symbols scope d := by
  by_cases hself : keyword = "Self"
  · subst hself
    rw [bind_self identifier] at h
    rcases none_of_bindControl h with ⟨missing, rfl⟩
    exact .noControl identifier (Or.inl ⟨rfl, missing⟩)
  by_cases hparent : keyword = "Parent"
  · subst hparent
    rw [bind_parent identifier] at h
    rcases none_of_bindControl h with ⟨missing, rfl⟩
    exact .noControl identifier (Or.inr ⟨rfl, missing⟩)
  rw [bind_record identifier hself hparent] at h
  cases hframe : scope.innermost (if keyword = "ThisItem" then some .item else none) with
  | none =>
      simp only [hframe, bindRecord, Option.some.injEq] at h
      subst h
      exact .unavailable identifier hself hparent (Scope.innermost_eq_none.mp hframe)
  | some frame =>
      rcases Scope.innermost_iff.mp hframe with ⟨k, row⟩
      simp only [hframe, bindRecord] at h
      split at h
      · rename_i segment others fields hchain hfields
        split at h
        · simp at h
        · rename_i unlisted
          obtain rfl := Option.some.inj h
          exact .missingMember identifier hself hparent row hchain hfields (by simpa using unlisted)
      · simp at h

/-- A reference is given exactly the warnings that belong to it. -/
theorem warns_iff : (r.bind symbols scope).warning = some d ↔ r.Warns symbols scope d := by
  refine ⟨fun h => ?_, Warns.warning_eq⟩
  cases hidentifier : r.identifier with
  | plain name => exact warns_of_plain hidentifier h
  | global name => exact warns_of_global hidentifier h
  | field source name => exact warns_of_field hidentifier h
  | context keyword => exact warns_of_context hidentifier h

end NameReference

/-! ## The warnings of an expression -/

/-- The warnings of an expression are those of its names, each in its own scope. -/
theorem resolve_diagnostics (symbols : SymbolTable) (scope : Scope) (e : Expr) :
    (resolve symbols scope e).diagnostics = sortDiagnostics (e.names.filterMap fun n =>
      (n.2.bind symbols (e.scopeAt symbols scope n.1)).warning) := by
  simp only [resolve, Expr.bindNames_eq_names, List.filterMap_map, Function.comp_def]

/-- The parts of an expression that are bound are its names, in walking order. -/
theorem resolve_keys (symbols : SymbolTable) (scope : Scope) (e : Expr) :
    (resolve symbols scope e).bindings.keys = e.names.map (·.1) := by
  simp only [resolve, bindingsOf, OrderedMap.keys, Expr.bindNames_eq_names, List.map_map,
    List.nil_append, Function.comp_def]

/-- The bindings and warnings of an expression, name by name.  There is one binding for each name of
the expression, in walking order, and none for other parts.  The warnings, each with the path of the
name that it is raised for, are those that the names are given in their own scopes, and no name is
given two. -/
theorem resolve_warns_once (symbols : SymbolTable) (scope : Scope) (e : Expr) :
    let resolution := resolve symbols scope e
    resolution.bindings.keys = e.names.map (·.1) ∧ resolution.bindings.keys.Nodup ∧
      ∃ warned : List (Path × Diagnostic),
        resolution.diagnostics = sortDiagnostics (warned.map (·.2)) ∧ (warned.map (·.1)).Nodup ∧
          ∀ path d, (path, d) ∈ warned ↔
            ∃ r, (path, r) ∈ e.names ∧ r.Warns symbols (e.scopeAt symbols scope path) d := by
  intro resolution
  have hkeys : resolution.bindings.keys = e.names.map (·.1) := resolve_keys symbols scope e
  refine ⟨hkeys, hkeys ▸ e.nodup_names, ?_⟩
  let warned : List (Path × Diagnostic) := e.names.filterMap fun n =>
    (n.2.bind symbols (e.scopeAt symbols scope n.1)).warning.map fun d => (n.1, d)
  refine ⟨warned, ?_, ?_, fun path d => ?_⟩
  · simp only [resolution, resolve_diagnostics, warned, List.map_filterMap, Option.map_map,
      Function.comp_def, Option.map_id']
  · have hnames := e.nodup_names
    rw [List.Nodup, List.pairwise_map] at hnames ⊢
    rw [List.pairwise_filterMap]
    refine hnames.imp fun {m n} hpath a ha b hb => ?_
    rcases Option.map_eq_some_iff.mp ha with ⟨_, -, rfl⟩
    rcases Option.map_eq_some_iff.mp hb with ⟨_, -, rfl⟩
    exact hpath
  · simp only [warned, List.mem_filterMap, Prod.exists, Option.map_eq_some_iff, Prod.mk.injEq,
      NameReference.warns_iff]
    constructor
    · rintro ⟨_, r, hname, _, hwarns, rfl, rfl⟩
      exact ⟨r, hname, hwarns⟩
    · rintro ⟨r, hname, hwarns⟩
      exact ⟨path, r, hname, d, hwarns, rfl, rfl⟩

end FormulaLint
