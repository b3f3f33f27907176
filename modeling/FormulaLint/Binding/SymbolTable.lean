import FormulaLint.Binding.Kind
import FormulaLint.OrderedMap

/-!
# Symbol tables

The names that an application declares, with their kinds, and the fields of its data sources.  A
source with declared fields is a data source even when nothing else says so.
-/

namespace FormulaLint

/-- The declared names of an application. -/
structure SymbolTable where
  symbols : OrderedMap String ReferenceKind
  fields : OrderedMap String (List String)
deriving DecidableEq, Repr

namespace SymbolTable

/-- The table of the given symbols and data source fields. -/
def build (symbols : OrderedMap String ReferenceKind) (fields : OrderedMap String (List String)) :
    SymbolTable :=
  ⟨fields.keys.foldl (fun table source => table.insertIfNew source .dataSource) symbols, fields⟩

/-- The table without names. -/
def empty : SymbolTable :=
  ⟨.empty, .empty⟩

/-- The kind of a declared name. -/
def lookup (table : SymbolTable) (name : String) : Option ReferenceKind :=
  table.symbols.get? name

/-- The declared fields of a data source. -/
def fieldsOf (table : SymbolTable) (source : String) : Option (List String) :=
  table.fields.get? source

/-- The fields of a table source, unknown without a source or a declaration. -/
def sourceFields (table : SymbolTable) (source : Option String) : Option (List String) :=
  source.bind table.fieldsOf

/-- The names of both tables; the second one wins where they differ. -/
def merged (table other : SymbolTable) : SymbolTable :=
  build (table.symbols.merge other.symbols) (table.fields.merge other.fields)

/-- A table as a message shows it. -/
def shown (table : SymbolTable) : String :=
  "SymbolTable(" ++ toString table.symbols.size ++ " symbol(s), " ++ toString table.fields.size ++
    " data source(s))"

end SymbolTable

end FormulaLint
