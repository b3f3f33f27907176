import FormulaLint.Binding.Scope
import FormulaLint.Binding.SymbolTable
import FormulaLint.Expr.Walk

/-!
# Resolving references

Every reference that starts with a name is bound to what the name stands for.  A plain name is
looked for in the record scopes that are known to have it, innermost first, then among the
declared names, then in the innermost scope with unknown fields.  Functions over tables open a
record scope for every argument behind the first.
-/

namespace FormulaLint

/-- Functions that read a record scope from their first argument. -/
def recordScopeFunctions : List String :=
  ["Filter", "LookUp", "Sort", "ForAll", "Sum", "CountIf", "AddColumns", "Average", "Max", "Min",
   "RemoveIf", "UpdateIf"]

/-- Functions whose result has the rows of their first argument. -/
def rowPreservingFunctions : List String :=
  ["Filter", "Sort", "SortByColumns", "Search", "FirstN", "LastN"]

/-- Entering a scope adds its frame at the inner end. -/
@[simp] theorem Scope.push_frames (scope : Scope) (frame : Frame) :
    (scope.push frame).frames = scope.frames ++ [frame] := rfl

/-! ## Binding one name -/

/-- A binding, with the warning that goes with it. -/
structure Bound where
  binding : Binding
  warning : Option Diagnostic := none
deriving DecidableEq, Repr

/-- A reference by name: the identifier, its place, and its members. -/
structure NameReference where
  identifier : Identifier
  span : Span
  chain : List Segment
deriving DecidableEq, Repr

namespace NameReference

/-- The first member that is accessed. -/
def member (r : NameReference) : Option String :=
  r.chain.head?.map (·.name)

/-- Nothing was found. -/
def unresolved (r : NameReference) (message : String) : Bound :=
  ⟨⟨.unresolved, r.identifier.name, none, none, r.member⟩,
    some (.report .unresolvedIdentifier r.span message)⟩

/-- A declared name was found. -/
def declared (r : NameReference) (kind : ReferenceKind) : Bound :=
  let kind := if r.member.isSome then kind.withMember else kind
  ⟨⟨kind, r.identifier.name, none, none, r.member⟩, none⟩

/-- A field of a frame was found. -/
def fieldOf (r : NameReference) (frame : Frame) : Bound :=
  ⟨⟨.dataSourceField, r.identifier.name, frame.source, some frame, r.member⟩, none⟩

/-- Bind a plain name. -/
def bindPlain (r : NameReference) (symbols : SymbolTable) (scope : Scope) (name : String) : Bound :=
  match scope.frameWith name with
  | some frame => r.fieldOf frame
  | none =>
      match symbols.lookup name with
      | some kind => r.declared kind
      | none =>
          match scope.openFrame with
          | some frame => r.fieldOf frame
          | none => r.unresolved ("Name '" ++ name ++ "' is not defined")

/-- Bind a name of the application as a whole. -/
def bindGlobal (r : NameReference) (symbols : SymbolTable) (name : String) : Bound :=
  match symbols.lookup name with
  | some kind => r.declared kind
  | none => r.unresolved ("Global name '" ++ name ++ "' is not defined")

/-- Bind a field of a named source: the source of the outermost frame over it, or else a declared
data source. -/
def bindField (r : NameReference) (symbols : SymbolTable) (scope : Scope) (source name : String) :
    Bound :=
  match scope.frameOver source with
  | some frame => check frame.fields (some frame)
  | none =>
      if symbols.lookup source = some .dataSource then check (symbols.fieldsOf source) none
      else r.unresolved ("Data source '" ++ source ++ "' is not defined")
where
  /-- A field that is not among known fields is not found. -/
  check (fields : Option (List String)) (frame : Option Frame) : Bound :=
    if fields.any (fun known => !known.contains name) then
      r.unresolved ("Data source '" ++ source ++ "' has no field '" ++ name ++ "'")
    else ⟨⟨.dataSourceField, name, some source, frame, r.member⟩, none⟩

/-- Bind a keyword for the current control or its parent. -/
def bindControl (r : NameReference) (keyword : String) (control : Option String) : Bound :=
  ⟨⟨.contextKeyword, keyword, control, none, r.member⟩,
    if control.isNone then
      some (.report .contextUnavailable r.span ("'" ++ keyword ++ "' has no control in this context"))
    else none⟩

/-- Bind a keyword for the current record or item. -/
def bindRecord (r : NameReference) (keyword : String) (frame : Option Frame) : Bound :=
  match frame with
  | none =>
      ⟨⟨.contextKeyword, keyword, none, none, r.member⟩,
        some (.report .contextUnavailable r.span
          ("'" ++ keyword ++ "' is only available inside a record scope"))⟩
  | some frame =>
      ⟨⟨.contextKeyword, keyword, frame.source, some frame, r.member⟩,
        match r.chain, frame.fields with
        | segment :: _, some fields =>
            if fields.contains segment.name then none
            else
              let owner := match frame.source with
                | some source => if source.isEmpty then "the current record" else "'" ++ source ++ "'"
                | none => "the current record"
              some (.report .unresolvedIdentifier segment.span
                ("Field '" ++ segment.name ++ "' does not exist in " ++ owner))
        | _, _ => none⟩

/-- Bind a reference in a scope. -/
def bind (r : NameReference) (symbols : SymbolTable) (scope : Scope) : Bound :=
  match r.identifier with
  | .plain name => r.bindPlain symbols scope name
  | .global name => r.bindGlobal symbols name
  | .field source name => r.bindField symbols scope source name
  | .context keyword =>
      if keyword = "Self" then r.bindControl keyword scope.self
      else if keyword = "Parent" then r.bindControl keyword scope.parent
      else
        r.bindRecord keyword
          (scope.innermost (if keyword = "ThisItem" then some .item else none))

end NameReference

/-! ## Binding every name of an expression -/

/-- Bindings by the path of the reference. -/
abbrev Bindings := OrderedMap Path Binding

/-- The data source whose rows an expression reads, seen through functions that keep the rows of
their first argument. -/
def tableSource (bindings : Bindings) (here : Path) : Expr → Option String
  | .call function (first :: _) [] _ =>
      if rowPreservingFunctions.contains function then tableSource bindings (here ++ [0]) first
      else none
  | .name _ _ [] _ =>
      match bindings.get? here with
      | some binding => if binding.kind = .dataSource then some binding.name else none
      | none => none
  | _ => none

/-- A reference that was bound: its path and what it was bound to. -/
abbrev BoundAt := Path × Bound

/-- The bindings of bound references. -/
def bindingsOf (bound : List BoundAt) : Bindings :=
  ⟨bound.map fun b => (b.1, b.2.binding)⟩

mutual

/-- Bind every name of an expression, in walking order; {lit}`here` is the path of the
expression. -/
def Expr.bindNames (symbols : SymbolTable) (scope : Scope) (here : Path) : Expr → List BoundAt
  | .literal _ _ | .hole => []
  | .name identifier span chain _ =>
      [(here, NameReference.bind ⟨identifier, span, chain⟩ symbols scope)]
  | .member base _ _ => base.bindNames symbols scope (here ++ [0])
  | .call function arguments qualifiers _ =>
      if recordScopeFunctions.contains function && qualifiers.isEmpty then
        match arguments with
        | [] => []
        | first :: rest =>
            let table := first.bindNames symbols scope (here ++ [0])
            let source := tableSource (bindingsOf table) (here ++ [0]) first
            let inner := scope.push ⟨.record, source, symbols.sourceFields source⟩
            table ++ bindAll symbols inner here 1 rest
      else bindAll symbols scope here 0 arguments
  | .record fields _ => bindFields symbols scope here 0 fields
  | .table elements _ => bindAll symbols scope here 0 elements
  | .unary _ operand _ => operand.bindNames symbols scope (here ++ [0])
  | .binary _ left right _ =>
      left.bindNames symbols scope (here ++ [0]) ++ right.bindNames symbols scope (here ++ [1])
  | .chain clauses _ => bindAll symbols scope here 0 clauses

/-- Bind every name of the children from position {lit}`index` on. -/
def bindAll (symbols : SymbolTable) (scope : Scope) (here : Path) (index : Nat) :
    List Expr → List BoundAt
  | [] => []
  | e :: rest =>
      e.bindNames symbols scope (here ++ [index]) ++ bindAll symbols scope here (index + 1) rest

/-- Bind every name of the field values from position {lit}`index` on. -/
def bindFields (symbols : SymbolTable) (scope : Scope) (here : Path) (index : Nat) :
    List Field → List BoundAt
  | [] => []
  | .mk _ value _ :: rest =>
      value.bindNames symbols scope (here ++ [index]) ++
        bindFields symbols scope here (index + 1) rest

end

/-- The bindings of an expression, in walking order, and the warnings in source order. -/
structure Resolution where
  bindings : Bindings
  diagnostics : List Diagnostic
deriving DecidableEq, Repr

namespace Resolution

/-- The paths of the references that stand for nothing. -/
def unresolved (r : Resolution) : List Path :=
  (r.bindings.entries.filter fun entry => entry.2.kind = .unresolved).map (·.1)

end Resolution

/-- Bind every name of an expression. -/
def resolve (symbols : SymbolTable) (scope : Scope) (e : Expr) : Resolution :=
  let bound := e.bindNames symbols scope []
  ⟨bindingsOf bound, sortDiagnostics (bound.filterMap fun b => b.2.warning)⟩

end FormulaLint
