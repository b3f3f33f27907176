import FormulaLint.Proofs.Binding.Meaning
import FormulaLint.Proofs.Paths

/-!
# The scope of a part

The scope in which a part of an expression is read depends on the calls around it alone: every call
that opens a record scope, and has the part under an argument behind its first, adds one frame over
the source of that first argument.  The source is the one that the first argument names in the scope
of the call itself.  Every name is bound in its own scope, whatever else has been bound before.

Main results:

- Theorem {lit}`tableSource_eq_sourceIn`: bindings of names in their scopes show the source that an
  expression names.
- Theorem {lit}`Expr.mem_bindNames`: exactly the names are bound, each in its own scope.
- Theorem {lit}`resolve_resolves`: resolving binds every name in its own scope.
- Theorem {lit}`Bindings.Resolves.frames_scopeAt`: the frames of a scope, read off the bindings.
- Theorem {lit}`resolve_binds_by_scope`: what every name is bound to.
-/

namespace FormulaLint

/-! ## Scopes by path -/

/-- The data source that a name without members stands for in a scope: one of the declared ones,
unless a frame has a field of that name. -/
def Identifier.sourceIn (symbols : SymbolTable) (scope : Scope) : Identifier → Option String
  | .plain name =>
      if (∀ frame ∈ scope.frames, ¬ frame.hasField name = true) ∧
          symbols.lookup name = some .dataSource then some name
      else none
  | .global name => if symbols.lookup name = some .dataSource then some name else none
  | .field _ _ | .context _ => none

/-- The frame for the rows of a table, over its source if it has one. -/
def SymbolTable.rowFrame (symbols : SymbolTable) (source : Option String) : Frame :=
  ⟨.record, source, symbols.sourceFields source⟩

namespace Expr

/-- The data source whose rows an expression reads in a scope, seen through functions that keep the
rows of their first argument. -/
def sourceIn (symbols : SymbolTable) (scope : Scope) : Expr → Option String
  | .call function (first :: _) [] _ =>
      if function ∈ rowPreservingFunctions then first.sourceIn symbols scope else none
  | .name identifier _ [] _ => identifier.sourceIn symbols scope
  | _ => none

/-- The table whose rows the child at a position is read for: the first argument of a call that
opens a record scope, for the arguments behind it. -/
def rowTable? : Expr → Nat → Option Expr
  | .call function (first :: _) [] _, i =>
      if function ∈ recordScopeFunctions ∧ 1 ≤ i then some first else none
  | _, _ => none

/-- The calls around a path that open a record scope for it, outermost first: the path of the call
and its table. -/
def rowCalls (e : Expr) (path : Path) : List (Path × Expr) :=
  (List.range path.length).filterMap fun k =>
    (e.at? (path.take k)).bind fun part =>
      (path[k]?).bind fun i => (part.rowTable? i).map fun rows => (path.take k, rows)

/-- The scope of the part at a path: one more frame for each call around it that opens a record
scope. -/
def scopeAt (symbols : SymbolTable) (scope : Scope) (e : Expr) (path : Path) : Scope :=
  (e.rowCalls path).foldl
    (fun scope call => scope.push (symbols.rowFrame (call.2.sourceIn symbols scope))) scope

/-- The scope of the child at a position. -/
def childScope (symbols : SymbolTable) (scope : Scope) (e : Expr) (i : Nat) : Scope :=
  match e.rowTable? i with
  | some rows => scope.push (symbols.rowFrame (rows.sourceIn symbols scope))
  | none => scope

variable {symbols : SymbolTable} {scope : Scope} {e c : Expr}

/-- Exactly the calls of certain functions open a record scope, for the arguments behind the
first. -/
theorem rowTable?_eq_some_iff {i : Nat} {rows : Expr} :
    e.rowTable? i = some rows ↔ ∃ function rest span,
      e = .call function (rows :: rest) [] span ∧ function ∈ recordScopeFunctions ∧ 1 ≤ i := by
  unfold rowTable?
  constructor
  · intro h
    split at h
    · rename_i function first rest span
      split at h
      · rename_i hopens
        obtain rfl : first = rows := by simpa using h
        exact ⟨function, rest, span, rfl, hopens⟩
      · simp at h
    · simp at h
  · rintro ⟨function, rest, span, rfl, hopens⟩
    exact if_pos hopens

@[simp] theorem rowTable?_zero (e : Expr) : e.rowTable? 0 = none := by
  rw [Option.eq_none_iff_forall_ne_some]
  intro rows h
  rcases rowTable?_eq_some_iff.mp h with ⟨_, _, _, -, -, hi⟩
  omega

/-- The scope of an argument that a call opens a record scope for. -/
theorem childScope_of_rows {i : Nat} {rows : Expr} (h : e.rowTable? i = some rows) :
    e.childScope symbols scope i =
      scope.push (symbols.rowFrame (rows.sourceIn symbols scope)) := by
  rw [childScope, h]

/-- Without a record scope the scope stays the same. -/
theorem childScope_of_none {i : Nat} (h : e.rowTable? i = none) :
    e.childScope symbols scope i = scope := by
  rw [childScope, h]

@[simp] theorem childScope_zero (e : Expr) : e.childScope symbols scope 0 = scope :=
  childScope_of_none (rowTable?_zero e)

@[simp] theorem rowCalls_nil (e : Expr) : e.rowCalls [] = [] := rfl

/-- The calls around a path are the expression itself, if it opens a record scope there, and the
calls around the rest of the path in the child. -/
theorem rowCalls_cons {i : Nat} (h : e.children[i]? = some c) (rest : Path) :
    e.rowCalls (i :: rest) =
      ((e.rowTable? i).map fun rows => ([], rows)).toList ++
        (c.rowCalls rest).map fun call => (i :: call.1, call.2) := by
  have hat : ∀ q, e.at? (i :: q) = c.at? q := fun q => by rw [at?, h, Option.bind_some]
  unfold rowCalls
  rw [List.length_cons, List.range_succ_eq_map, List.filterMap_cons, List.filterMap_map,
    List.map_filterMap]
  simp only [List.take_zero, at?_nil, List.getElem?_cons_zero, Option.bind_some, Function.comp_def,
    List.take_succ_cons, List.getElem?_cons_succ, hat, Option.map_bind, Option.map_map]
  cases e.rowTable? i <;> rfl

@[simp] theorem scopeAt_nil (e : Expr) : e.scopeAt symbols scope [] = scope := rfl

/-- The scope of a part is its scope in the child that the path leads through. -/
theorem scopeAt_cons {i : Nat} (h : e.children[i]? = some c) (rest : Path) :
    e.scopeAt symbols scope (i :: rest) =
      c.scopeAt symbols (e.childScope symbols scope i) rest := by
  unfold scopeAt childScope
  rw [rowCalls_cons h, List.foldl_append, List.foldl_map]
  cases e.rowTable? i <;> rfl

/-- The scope of a part, in two stages. -/
theorem scopeAt_append {part : Expr} {p : Path} (h : e.at? p = some part) (q : Path) :
    e.scopeAt symbols scope (p ++ q) =
      part.scopeAt symbols (e.scopeAt symbols scope p) q := by
  induction p generalizing e scope with
  | nil =>
      obtain rfl : e = part := by simpa using h
      rfl
  | cons i rest ih =>
      rcases at?_cons.mp h with ⟨c, hc, hrest⟩
      rw [List.cons_append, scopeAt_cons hc, scopeAt_cons hc, ih hrest]

/-- Record scopes add frames at the inner end and leave the controls of a scope alone. -/
theorem scopeAt_eq (symbols : SymbolTable) (scope : Scope) (e : Expr) (path : Path) :
    ∃ inner, e.scopeAt symbols scope path = { scope with frames := scope.frames ++ inner } := by
  unfold scopeAt
  induction e.rowCalls path generalizing scope with
  | nil => exact ⟨[], by simp⟩
  | cons call rest ih =>
      rcases ih (scope.push (symbols.rowFrame (call.2.sourceIn symbols scope))) with ⟨inner, hinner⟩
      refine ⟨symbols.rowFrame (call.2.sourceIn symbols scope) :: inner, ?_⟩
      rw [List.foldl_cons, hinner]
      simp [Scope.push]

end Expr

/-! ## Bindings and scopes -/

/-- Whether bindings give every name of the expression at a path what it stands for in its own
scope. -/
def Bindings.Resolves (bindings : Bindings) (symbols : SymbolTable) (scope : Scope) (here : Path)
    (e : Expr) : Prop :=
  ∀ rel identifier identifierSpan chain span,
    e.at? rel = some (.name identifier identifierSpan chain span) →
      bindings.get? (here ++ rel) = some
        (NameReference.bind ⟨identifier, identifierSpan, chain⟩ symbols
          (e.scopeAt symbols scope rel)).binding

variable {bindings : Bindings} {symbols : SymbolTable} {scope : Scope} {here : Path}

/-- What bindings say about an expression they say about its children. -/
theorem Bindings.Resolves.child {e c : Expr} {i : Nat}
    (h : bindings.Resolves symbols scope here e) (hc : e.children[i]? = some c) :
    bindings.Resolves symbols (e.childScope symbols scope i) (here ++ [i]) c := by
  intro rel identifier identifierSpan chain span hname
  have hat : e.at? (i :: rel) = some (.name identifier identifierSpan chain span) :=
    Expr.at?_cons.mpr ⟨c, hc, hname⟩
  have hbinding := h (i :: rel) identifier identifierSpan chain span hat
  rw [Expr.scopeAt_cons hc] at hbinding
  simpa using hbinding

/-- What bindings say about an expression they say about its parts. -/
theorem Bindings.Resolves.part {e part : Expr} {p : Path}
    (h : bindings.Resolves symbols scope here e) (hp : e.at? p = some part) :
    bindings.Resolves symbols (e.scopeAt symbols scope p) (here ++ p) part := by
  intro rel identifier identifierSpan chain span hname
  have hat := (Expr.at?_append_of hp rel).trans hname
  have hbinding := h (p ++ rel) identifier identifierSpan chain span hat
  rw [Expr.scopeAt_append hp] at hbinding
  simpa using hbinding

/-- A name without members is bound to a data source exactly when it names one in its scope. -/
theorem NameReference.bind_dataSource (identifier : Identifier) (span : Span) {b : Binding}
    (hb : (NameReference.bind ⟨identifier, span, []⟩ symbols scope).binding = b) :
    (if b.kind = .dataSource then some b.name else none) = identifier.sourceIn symbols scope := by
  rcases NameReference.means_iff.mpr hb with ⟨position, h⟩
  cases h with
  | @rowField name k frame hid row =>
      obtain rfl : identifier = .plain name := hid
      have hmem : frame ∈ scope.frames := List.mem_of_getElem? row.found
      rw [if_neg (by simp), Identifier.sourceIn, if_neg fun h => h.1 frame hmem row.holds]
  | @declared name kind hid unshadowed known =>
      obtain rfl : identifier = .plain name := hid
      have hkind : NameReference.declaredKind ⟨.plain name, span, []⟩ kind = kind := by
        simp [NameReference.declaredKind, NameReference.member]
      rw [hkind, Identifier.sourceIn, known]
      by_cases hsource : kind = .dataSource
      · rw [if_pos hsource, if_pos ⟨unshadowed, congrArg some hsource⟩]
      · rw [if_neg hsource, if_neg fun h => hsource (Option.some.inj h.2)]
  | @assumed name k frame hid unshadowed unknown row =>
      obtain rfl : identifier = .plain name := hid
      simp [Identifier.sourceIn, unknown]
  | @undefined name hid unshadowed unknown closed =>
      obtain rfl : identifier = .plain name := hid
      simp [Identifier.sourceIn, unknown]
  | @global name kind hid known =>
      obtain rfl : identifier = .global name := hid
      have hkind : NameReference.declaredKind ⟨.global name, span, []⟩ kind = kind := by
        simp [NameReference.declaredKind, NameReference.member]
      rw [hkind, Identifier.sourceIn, known]
      by_cases hsource : kind = .dataSource
      · rw [if_pos hsource, if_pos (congrArg some hsource)]
      · rw [if_neg hsource, if_neg fun h => hsource (Option.some.inj h)]
  | @undeclared name hid unknown =>
      obtain rfl : identifier = .global name := hid
      simp [Identifier.sourceIn, unknown]
  | @sourceField source name _ _ hid | @missingField source name _ _ _ hid
  | @declaredField source name hid | @missingDeclaredField source name _ hid
  | @noSource source name hid =>
      obtain rfl : identifier = .field source name := hid
      simp [Identifier.sourceIn]
  | self hid =>
      obtain rfl : identifier = .context "Self" := hid
      simp [Identifier.sourceIn]
  | parent hid =>
      obtain rfl : identifier = .context "Parent" := hid
      simp [Identifier.sourceIn]
  | @current keyword _ _ hid | @unavailable keyword hid =>
      obtain rfl : identifier = .context keyword := hid
      simp [Identifier.sourceIn]

/-- Bindings of names in their scopes show the source that an expression names. -/
theorem tableSource_eq_sourceIn {e : Expr} (h : bindings.Resolves symbols scope here e) :
    tableSource bindings here e = e.sourceIn symbols scope := by
  fun_induction Expr.sourceIn symbols scope e generalizing here with
  | case1 function first rest span hrows ih =>
      have hchild : (Expr.call function (first :: rest) [] span).children[0]? = some first := rfl
      have hfirst := h.child hchild
      rw [Expr.childScope_zero] at hfirst
      rw [tableSource, if_pos (by simpa using hrows), ih hfirst]
  | case2 function first rest span hrows =>
      rw [tableSource, if_neg (by simpa using hrows)]
  | case3 identifier span whole =>
      have hname := h [] identifier span [] whole rfl
      rw [List.append_nil] at hname
      rw [tableSource, hname]
      exact NameReference.bind_dataSource identifier span rfl
  | case4 e hcall hname =>
      rw [tableSource]
      · exact hcall
      · exact hname

/-! ## Binding every name of an expression -/

/-- Binding the names of the children is binding those of each child. -/
theorem bindAll_eq_flatMap (symbols : SymbolTable) (scope : Scope) (here : Path) (index : Nat)
    (es : List Expr) :
    bindAll symbols scope here index es =
      (es.zipIdx index).flatMap fun c => c.1.bindNames symbols scope (here ++ [c.2]) := by
  induction es generalizing index with
  | nil => rfl
  | cons e rest ih => rw [bindAll, ih, List.zipIdx_cons, List.flatMap_cons]

/-- Binding the names of field values is binding those of the list of values. -/
theorem bindFields_eq (symbols : SymbolTable) (scope : Scope) (here : Path) (index : Nat)
    (fields : List Field) :
    bindFields symbols scope here index fields =
      bindAll symbols scope here index (fields.map Field.value) := by
  induction fields generalizing index with
  | nil => rfl
  | cons field rest ih =>
      rcases field with ⟨name, value, span⟩
      rw [bindFields, ih, List.map_cons, bindAll]
      rfl

namespace Expr

/-- The names of a call that opens a record scope: those of the table, and those of the other
arguments with one frame more. -/
theorem bindNames_rows {function : String} {first : Expr} {rest : List Expr} {span : Span}
    (hfunction : function ∈ recordScopeFunctions)
    (hsource : tableSource (bindingsOf (first.bindNames symbols scope (here ++ [0])))
      (here ++ [0]) first = first.sourceIn symbols scope) :
    (call function (first :: rest) [] span).bindNames symbols scope here =
      (first :: rest).zipIdx.flatMap fun c => c.1.bindNames symbols
        ((call function (first :: rest) [] span).childScope symbols scope c.2)
        (here ++ [c.2]) := by
  have hopens : (recordScopeFunctions.contains function && ([] : List String).isEmpty) = true := by
    simpa using hfunction
  rw [bindNames, if_pos hopens]
  dsimp only
  rw [hsource, bindAll_eq_flatMap, List.zipIdx_cons, List.flatMap_cons, childScope_zero,
    List.flatMap_def, List.flatMap_def]
  refine congrArg _ (congrArg _ (List.map_congr_left fun c hc => ?_))
  have hrows : (call function (first :: rest) [] span).rowTable? c.2 = some first :=
    rowTable?_eq_some_iff.mpr ⟨_, _, _, rfl, hfunction, List.le_snd_of_mem_zipIdx hc⟩
  rw [childScope_of_rows hrows]
  rfl

/-- The names of an expression that is no name itself are those of its children, each in the scope
of the child. -/
theorem bindNames_eq {e : Expr}
    (hname : ∀ identifier identifierSpan chain span,
      e ≠ .name identifier identifierSpan chain span)
    (hsource : ∀ c ∈ e.children,
      tableSource (bindingsOf (c.bindNames symbols scope (here ++ [0]))) (here ++ [0]) c =
        c.sourceIn symbols scope) :
    e.bindNames symbols scope here = e.children.zipIdx.flatMap fun c =>
      c.1.bindNames symbols (e.childScope symbols scope c.2) (here ++ [c.2]) := by
  cases e with
  | literal _ _ | hole => rfl
  | name identifier identifierSpan chain span => exact (hname _ _ _ _ rfl).elim
  | member base chain span | unary op operand span | binary op left right span =>
      simp [bindNames, children, childScope, rowTable?]
  | table elements span | chain clauses span =>
      simp [bindNames, children, childScope, rowTable?, bindAll_eq_flatMap]
  | record fields span =>
      simp [bindNames, children, childScope, rowTable?, bindFields_eq, bindAll_eq_flatMap]
  | call function arguments qualifiers span =>
      by_cases hopens : function ∈ recordScopeFunctions ∧ qualifiers = []
      · rcases hopens with ⟨hfunction, rfl⟩
        cases arguments with
        | nil => simp [bindNames, children, hfunction]
        | cons first rest =>
            exact bindNames_rows hfunction (hsource first (List.mem_cons_self ..))
      · have hnone : ∀ i, (call function arguments qualifiers span).rowTable? i = none := by
          intro i
          rw [Option.eq_none_iff_forall_ne_some]
          intro rows h
          rcases rowTable?_eq_some_iff.mp h with ⟨_, _, _, heq, hfunction, -⟩
          cases heq
          exact hopens ⟨hfunction, rfl⟩
        have hplain : ¬ (recordScopeFunctions.contains function && qualifiers.isEmpty) = true := by
          simpa using hopens
        rw [bindNames.eq_def]
        dsimp only
        rw [if_neg hplain]
        simp only [bindAll_eq_flatMap, children, childScope_of_none (hnone _)]

end Expr

/-- Bound names of the right places and scopes resolve an expression. -/
theorem resolves_bindingsOf {bound : List BoundAt} {e : Expr}
    (h : ∀ path b, (path, b) ∈ bound ↔ ∃ rel identifier identifierSpan chain span,
      path = here ++ rel ∧ e.at? rel = some (.name identifier identifierSpan chain span) ∧
        b = NameReference.bind ⟨identifier, identifierSpan, chain⟩ symbols
          (e.scopeAt symbols scope rel)) :
    (bindingsOf bound).Resolves symbols scope here e := by
  intro rel identifier identifierSpan chain span hname
  refine OrderedMap.get?_eq_some_of_mem ?_ ?_
  · exact List.mem_map_of_mem ((h _ _).mpr ⟨rel, _, _, _, _, rfl, hname, rfl⟩)
  · intro binding hbinding
    rcases List.mem_map.mp hbinding with ⟨⟨path, b⟩, hb, heq⟩
    rcases Prod.mk.inj heq with ⟨rfl, rfl⟩
    rcases (h _ _).mp hb with ⟨rel', _, _, _, _, hpath, hname', rfl⟩
    obtain rfl : rel = rel' := List.append_cancel_left hpath
    rw [hname] at hname'
    cases hname'
    rfl

/-- Exactly the names of an expression are bound, each in its own scope. -/
theorem Expr.mem_bindNames {e : Expr} {path : Path} {bound : Bound} :
    (path, bound) ∈ e.bindNames symbols scope here ↔
      ∃ rel identifier identifierSpan chain span,
        path = here ++ rel ∧ e.at? rel = some (.name identifier identifierSpan chain span) ∧
          bound = NameReference.bind ⟨identifier, identifierSpan, chain⟩ symbols
            (e.scopeAt symbols scope rel) := by
  induction e using Expr.children_induct generalizing scope here path bound with
  | step e ih =>
      by_cases hname : ∃ identifier identifierSpan chain span,
          e = .name identifier identifierSpan chain span
      · rcases hname with ⟨identifier, identifierSpan, chain, span, rfl⟩
        rw [bindNames, List.mem_singleton, Prod.mk.injEq]
        constructor
        · rintro ⟨rfl, rfl⟩
          exact ⟨[], identifier, identifierSpan, chain, span, by simp⟩
        · rintro ⟨rel, _, _, _, _, rfl, hat, rfl⟩
          rcases at?_name hat with ⟨rfl, heq⟩
          cases heq
          simp
      · have hsource : ∀ c ∈ e.children,
            tableSource (bindingsOf (c.bindNames symbols scope (here ++ [0]))) (here ++ [0]) c =
              c.sourceIn symbols scope :=
          fun c hc => tableSource_eq_sourceIn (resolves_bindingsOf fun _ _ => ih c hc)
        rw [bindNames_eq (fun _ _ _ _ h => hname ⟨_, _, _, _, h⟩) hsource, List.mem_flatMap]
        constructor
        · rintro ⟨⟨c, i⟩, hc, hbound⟩
          have hchild := List.mem_zipIdx_iff_getElem?.mp hc
          rcases (ih c (List.mem_of_getElem? hchild)).mp hbound with
            ⟨rel, identifier, identifierSpan, chain, span, rfl, hat, rfl⟩
          refine ⟨i :: rel, identifier, identifierSpan, chain, span, by simp, ?_, ?_⟩
          · exact at?_cons.mpr ⟨c, hchild, hat⟩
          · rw [scopeAt_cons hchild]
        · rintro ⟨rel, identifier, identifierSpan, chain, span, rfl, hat, rfl⟩
          cases rel with
          | nil => exact absurd ⟨_, _, _, _, Option.some.inj (at?_nil e ▸ hat)⟩ hname
          | cons i rel =>
              rcases at?_cons.mp hat with ⟨c, hchild, hat⟩
              refine ⟨(c, i), List.mem_zipIdx_iff_getElem?.mpr hchild, ?_⟩
              refine (ih c (List.mem_of_getElem? hchild)).mpr ?_
              exact ⟨rel, _, _, _, _, by simp, hat, by rw [scopeAt_cons hchild]⟩

/-- Resolving binds every name in its own scope. -/
theorem resolve_resolves (symbols : SymbolTable) (scope : Scope) (e : Expr) :
    (resolve symbols scope e).bindings.Resolves symbols scope [] e :=
  resolves_bindingsOf fun _ _ => Expr.mem_bindNames

/-! ## Frames by bindings -/

/-- The frames of a scope, read off bindings: one frame for each call around the path that opens a
record scope, over the source that the bindings show for its table. -/
theorem Bindings.Resolves.frames_scopeAt {e part : Expr} {path : Path}
    (h : bindings.Resolves symbols scope here e) (hpart : e.at? path = some part) :
    (e.scopeAt symbols scope path).frames =
      scope.frames ++ (e.rowCalls path).map fun call =>
        symbols.rowFrame (tableSource bindings (here ++ (call.1 ++ [0])) call.2) := by
  induction path generalizing e scope here with
  | nil => simp
  | cons i rest ih =>
      rcases Expr.at?_cons.mp hpart with ⟨c, hc, hrest⟩
      rw [Expr.scopeAt_cons hc, ih (h.child hc) hrest, Expr.rowCalls_cons hc]
      cases hrows : e.rowTable? i with
      | none => simp [Expr.childScope_of_none hrows]
      | some rows =>
          rcases Expr.rowTable?_eq_some_iff.mp hrows with ⟨function, others, span, rfl, -, -⟩
          have hchild : (Expr.call function (rows :: others) [] span).children[0]? = some rows := rfl
          have hfirst := h.child hchild
          rw [Expr.childScope_zero] at hfirst
          simp [Expr.childScope_of_rows hrows, tableSource_eq_sourceIn hfirst]

/-! ## What every name is bound to -/

/-- Every name of an expression is bound to its one meaning in the scope of its path.  The scope
has the given frames and behind them, outermost call first, one frame for each call around the path
that opens a record scope for it: a frame over the source of the table of that call, with the fields
that are declared for the source. -/
theorem resolve_binds_by_scope (symbols : SymbolTable) (scope : Scope) (e : Expr) (path : Path)
    (identifier : Identifier) (identifierSpan : Span) (chain : List Segment) (span : Span)
    (h : e.at? path = some (.name identifier identifierSpan chain span)) :
    let bindings := (resolve symbols scope e).bindings
    let r : NameReference := ⟨identifier, identifierSpan, chain⟩
    (∃ b, bindings.get? path = some b ∧
      (∃ position, r.Means symbols (e.scopeAt symbols scope path) position b) ∧
      ∀ position' b', r.Means symbols (e.scopeAt symbols scope path) position' b' → b' = b) ∧
    e.scopeAt symbols scope path =
      { scope with
        frames := scope.frames ++ (e.rowCalls path).map fun call =>
          symbols.rowFrame (tableSource bindings (call.1 ++ [0]) call.2) } := by
  intro bindings r
  have hresolves := resolve_resolves symbols scope e
  constructor
  · refine ⟨_, hresolves path _ _ _ _ h, NameReference.means_iff.mpr rfl, ?_⟩
    intro position' b' hmeans
    exact hmeans.bind_eq.symm
  · rcases Expr.scopeAt_eq symbols scope e path with ⟨inner, hscope⟩
    have hframes := hresolves.frames_scopeAt h
    rw [hscope] at hframes ⊢
    exact congrArg (fun frames => { scope with frames }) hframes

/-- In {lit}`ForAll(Orders, Filter(Customers, Status = Orders[@Status]))` the field of the outer
table has two frames around it. -/
theorem resolve_binds_outer_field :
    let symbols : SymbolTable :=
      .build .empty ⟨[("Orders", ["Status"]), ("Customers", ["Status"])]⟩
    let name (identifier : Identifier) : Expr := .name identifier default [] default
    let filter : Expr := .call "Filter" [name (.plain "Customers"), .binary .equal
      (name (.plain "Status")) (name (.field "Orders" "Status")) default] [] default
    let e : Expr := .call "ForAll" [name (.plain "Orders"), filter] [] default
    let bindings := (resolve symbols {} e).bindings
    let r : NameReference := ⟨.field "Orders" "Status", default, []⟩
    e.at? [1, 1, 1] = some (name (.field "Orders" "Status")) ∧
      (∃ b, bindings.get? [1, 1, 1] = some b ∧
        (∃ position, r.Means symbols (e.scopeAt symbols {} [1, 1, 1]) position b) ∧
        ∀ position' b', r.Means symbols (e.scopeAt symbols {} [1, 1, 1]) position' b' → b' = b) ∧
      e.scopeAt symbols {} [1, 1, 1] =
        { frames := [] ++ (e.rowCalls [1, 1, 1]).map fun call =>
            symbols.rowFrame (tableSource bindings (call.1 ++ [0]) call.2) } := by
  intro symbols name filter e bindings r
  exact ⟨rfl, resolve_binds_by_scope symbols {} e [1, 1, 1] _ default [] default rfl⟩

end FormulaLint
