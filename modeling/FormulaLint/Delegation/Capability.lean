import FormulaLint.Operator
import FormulaLint.OrderedMap
import FormulaLint.Text.LetterCase
import FormulaLint.Text.Order
import FormulaLint.Text.Shown

/-!
# Capabilities of data sources

What a data source can do by itself with each of its fields: filter by it, sort by it, return it,
and which operators and functions it understands in a filter.  Operators are known by tags,
functions by their names in lower case.
-/

namespace FormulaLint

/-- The tag of a binary operator in a filter. -/
def Operator.filterTag? : Operator → Option String
  | .equal => some "eq"
  | .notEqual => some "ne"
  | .less => some "lt"
  | .lessEqual => some "le"
  | .greater => some "gt"
  | .greaterEqual => some "ge"
  | .membership => some "in"
  | .exactMembership => some "exactin"
  | .plus => some "add"
  | .minus => some "sub"
  | .times => some "mul"
  | .divide => some "div"
  | .concatenate => some "concat"
  | .power => some "pow"
  | _ => none

/-- The tag of a unary operator in a filter. -/
def Operator.unaryTag? : Operator → Option String
  | .minus => some "neg"
  | .percent => some "percent"
  | _ => none

/-- What a data source can do with one field. -/
structure Capability where
  filterable : Bool := true
  sortable : Bool := true
  selectable : Bool := true
  functions : List String := []
deriving DecidableEq, Repr

namespace Capability

/-- A capability whose functions are given in any case. -/
def build (filterable sortable selectable : Bool) (functions : List String) : Capability :=
  ⟨filterable, sortable, selectable, functions.map Text.lower⟩

/-- Whether a filter on the field may use the operator or function with a tag. -/
def supports (c : Capability) (tag : String) : Bool :=
  c.filterable && c.functions.contains tag

end Capability

/-- The capabilities of the fields of one source. -/
abbrev FieldCapabilities := OrderedMap String Capability

/-- The capabilities of the fields of every source that declares them. -/
structure CapabilityTable where
  sources : OrderedMap String FieldCapabilities
deriving DecidableEq, Repr

namespace CapabilityTable

/-- The table without sources. -/
def empty : CapabilityTable :=
  ⟨.empty⟩

/-- The capabilities of a source. -/
def forSource (table : CapabilityTable) (source : String) : Option FieldCapabilities :=
  table.sources.get? source

/-- The capability of a field of a source. -/
def capability (table : CapabilityTable) (source : Option String) (field : String) :
    Option Capability :=
  (source.bind table.forSource).bind fun fields => fields.get? field

/-- The names of the sources in order. -/
def sourceNames (table : CapabilityTable) : List String :=
  table.sources.keys.mergeSort Text.before

/-- A table as a message shows it. -/
def shown (table : CapabilityTable) : String :=
  "CapabilityTable([" ++ ", ".intercalate (table.sourceNames.map Text.shown) ++ "])"

end CapabilityTable

end FormulaLint
