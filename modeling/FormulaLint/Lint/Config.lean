import FormulaLint.Analysis.Formula
import FormulaLint.Data.Basic
import FormulaLint.Files.Tree
import FormulaLint.Yaml.Load

/-!
# Configuration

A configuration gives the authoring locale, says whether warnings count as failures and which files
are documents, and declares symbols and data sources.  A data source whose fields are a dictionary
tells what it can do with each of them; a list only names them.  Keys that mean nothing are noted and
otherwise left alone.
-/

namespace FormulaLint

/-- The name under which a configuration is looked for. -/
def configName : String := "fxlint.yaml"

/-- A configuration. -/
structure Config where
  locale : Option String := none
  profile : Profile := .dotDecimal
  strict : Bool := false
  pattern : String := "*.yaml"
  symbols : SymbolTable := .empty
  capabilities : CapabilityTable := .empty
deriving DecidableEq, Repr

namespace Config

/-- What the formulas of an application share; its own controls come first, and the configuration
wins over them. -/
def setting (c : Config) (controls : SymbolTable) : AnalysisSetting :=
  ⟨c.profile, controls.merged c.symbols, c.capabilities⟩

end Config

/-- What reading a configuration brings to notice. -/
inductive ConfigNotice where
  | unexpectedFields (filename : String) (names : List String)
  | unexpectedKeys (filename source field : String) (names : List String)
  | locale (tag : String) (profile : Profile)
deriving DecidableEq, Repr

namespace ConfigNotice

/-- The warning that is printed for a notice. -/
def warning? : ConfigNotice → Option String
  | unexpectedFields filename names =>
      some ("Warning: " ++ filename ++ " contains unexpected fields: " ++ ", ".intercalate names)
  | unexpectedKeys filename source field names =>
      some ("Warning: " ++ filename ++ " field '" ++ source ++ "." ++ field ++
        "' has unexpected keys: " ++ ", ".intercalate names)
  | locale _ _ => none

end ConfigNotice

/-- What is wrong with a configuration. -/
inductive ConfigProblem where
  | shape
  | locale
  | strict
  | pattern
  | symbols
  | symbol (name : String) (kind : UnknownKind)
  | overlongSymbol (name : String)
  | dataSources
  | dataSource (source : String)
  | fields (source : String)
  | field (source name : String)
  | flag (source name flag : String)
  | functions (source name : String)
  | unreadable (error : FileError) (path : PathName)
  | malformed (fault : String)
deriving DecidableEq, Repr

namespace ConfigProblem

/-- The wording of a problem. -/
def message : ConfigProblem → String
  | shape => "Invalid configuration structure (expected dictionary)"
  | locale => "Field 'locale' must be a string"
  | strict => "Field 'strict' must be true or false"
  | pattern => "Field 'include' must be a non-empty string"
  | symbols => "Field 'symbols' must be a dictionary"
  | symbol name kind => "Symbol '" ++ name ++ "': " ++ kind.message
  | overlongSymbol name => "Symbol '" ++ name ++ "': " ++ overlongWording
  | dataSources => "Field 'data_sources' must be a dictionary"
  | dataSource source => "Data source '" ++ source ++ "' must be a dictionary"
  | fields source => "Data source '" ++ source ++ "' must have a 'fields' list or dictionary"
  | field source name => "Field '" ++ source ++ "." ++ name ++ "' must be a dictionary"
  | flag source name word =>
      "'" ++ source ++ "." ++ name ++ "." ++ word ++ "' must be true or false"
  | functions source name =>
      "'" ++ source ++ "." ++ name ++ ".functions' must be a list of strings"
  | unreadable error path => "Error reading file - " ++ error.message path
  | malformed fault => "Invalid YAML syntax - " ++ fault

end ConfigProblem

/-- Why a configuration cannot be used.  Some faults are not those of a configuration as such: its
file may not be a text, it may hold a value that does not exist or cannot be written, or an unexpected
key that is not a text. -/
inductive ConfigError where
  | problem (filename : String) (cause : ConfigProblem)
  | locale (error : LocaleError)
  | unexpectedKeyNotText
  | notText
  | value (error : Yaml.ReadError)
deriving DecidableEq, Repr

namespace ConfigError

/-- The wording of an error that is reported as one of the configuration. -/
def message? : ConfigError → Option String
  | problem filename cause => some (filename ++ ": " ++ cause.message)
  | locale error => some error.message
  | unexpectedKeyNotText | notText | value _ => none

end ConfigError

/-- Reading a configuration: notices are kept also when it fails. -/
abbrev ConfigReader := ExceptT ConfigError (StateM (List ConfigNotice))

namespace ConfigReader

/-- Bring something to notice. -/
def note (notice : ConfigNotice) : ConfigReader Unit :=
  modify (· ++ [notice])

/-- Report a problem of a configuration file. -/
def fail {α : Type} (filename : String) (problem : ConfigProblem) : ConfigReader α :=
  throw (.problem filename problem)

/-- The profile of a locale tag or a decimal separator that wins over it.  A tag that decides is
noted. -/
def localeProfile (tag : Option String) (override : Option LocaleOverride) :
    ConfigReader Profile := do
  match resolveLocale (tag.map .text) override with
  | .error error => throw (.locale error)
  | .ok profile =>
      match tag, override with
      | some tag, none => note (.locale tag profile)
      | _, _ => pure ()
      return profile

/-- The keys that are not expected, in order; they have to be texts. -/
def unexpected (entries : List (Atom × Nat)) (expected : List String) :
    ConfigReader (List String) := do
  let names ← (entries.map (·.1)).mapM fun key =>
    match key with
    | .text name => pure name
    | _ => throw .unexpectedKeyNotText
  return (names.filter fun name => !expected.contains name).mergeSort Text.before

/-- The entries of a dictionary. -/
def dict? (d : Data) (id : Nat) : Option (List (Atom × Nat)) :=
  match d.cell id with
  | .dict entries => some entries
  | _ => none

/-- The value of a cell that is a text. -/
def text? (d : Data) (id : Nat) : Option String :=
  match d.cell id with
  | .atom (.text s) => some s
  | _ => none

/-- The value of a cell that is a truth value. -/
def truth? (d : Data) (id : Nat) : Option Bool :=
  match d.cell id with
  | .atom (.truth b) => some b
  | _ => none

/-- The plain text of a key. -/
def keyText (key : Atom) : ConfigReader String :=
  if key.isOverlong then throw (.value .unwritable) else pure key.plain

/-- The plain text of a cell. -/
def plainText (d : Data) (id : Nat) : ConfigReader String :=
  if d.isOverlong id then throw (.value .unwritable) else pure (d.plain id)

/-- Whether a cell holds nothing. -/
def isNull (d : Data) (id : Nat) : Bool :=
  d.cell id = .atom .null

/-- Whether a cell counts as absent where a dictionary is expected: nothing, a zero, and whatever is
empty. -/
def isVoid (d : Data) (id : Nat) : Bool :=
  match d.cell id with
  | .atom .null => true
  | .atom (.text s) => s.isEmpty
  | .atom (.bytes b) => b.isEmpty
  | .atom a => a.asNumber?.any fun n => n.same (.whole 0)
  | .list items => items.isEmpty
  | .dict entries => entries.isEmpty
  | .set items => items.isEmpty
  | .pair _ _ => false

/-! ## Fields of data sources -/

/-- The flags of a field. -/
def flags : List String := ["filterable", "sortable", "selectable"]

/-- Check that the flags of a field are truth values. -/
def checkFlags (filename source field : String) (d : Data) (entries : List (Atom × Nat)) :
    ConfigReader Unit :=
  flags.forM fun flag =>
    match Data.under? entries flag with
    | some id => if (truth? d id).isSome then pure () else fail filename (.flag source field flag)
    | none => pure ()

/-- The functions of a field. -/
def functions (filename source field : String) (d : Data) (entries : List (Atom × Nat)) :
    ConfigReader (List String) :=
  match Data.under? entries "functions" with
  | none => pure []
  | some id =>
      match d.cell id with
      | .list items =>
          items.mapM fun item =>
            match text? d item with
            | some name => pure name
            | none => fail filename (.functions source field)
      | _ => fail filename (.functions source field)

/-- What a data source can do with a field. -/
def capability (filename source field : String) (d : Data) (id : Nat) : ConfigReader Capability := do
  if isNull d id then return {}
  else
    match dict? d id with
    | none => fail filename (.field source field)
    | some entries =>
        checkFlags filename source field d entries
        let names ← functions filename source field d entries
        let others ← unexpected entries (flags ++ ["functions"])
        unless others.isEmpty do note (.unexpectedKeys filename source field others)
        let flag (name : String) : Bool := ((Data.under? entries name).bind (truth? d)).getD true
        return .build (flag "filterable") (flag "sortable") (flag "selectable") names

/-- The declared fields of all data sources so far, and what the sources can do with them. -/
structure Sources where
  fields : OrderedMap String (List String) := .empty
  capabilities : OrderedMap String FieldCapabilities := .empty

/-- Take up a data source. -/
def dataSource (filename : String) (d : Data) (sources : Sources) (entry : Atom × Nat) :
    ConfigReader Sources := do
  let source ← keyText entry.1
  let options ←
    if isNull d entry.2 then pure []
    else
      match dict? d entry.2 with
      | some options => pure options
      | none => fail filename (.dataSource source)
  match (Data.under? options "fields").map d.cell with
  | none => return { sources with fields := sources.fields.insert source [] }
  | some (.list items) =>
      let names ← items.mapM (plainText d)
      return { sources with fields := sources.fields.insert source names }
  | some (.dict entries) =>
      let names ← entries.mapM fun entry => keyText entry.1
      let fields := sources.fields.insert source names
      let capabilities ← entries.mapM fun (key, id) => do
        return (key.plain, ← capability filename source key.plain d id)
      return ⟨fields, sources.capabilities.insert source (.ofList capabilities)⟩
  | some _ => fail filename (.fields source)

/-! ## The configuration as a whole -/

/-- Take up a declared symbol. -/
def symbol (filename : String) (d : Data) (symbols : OrderedMap String ReferenceKind)
    (entry : Atom × Nat) : ConfigReader (OrderedMap String ReferenceKind) := do
  let name ← keyText entry.1
  if d.isOverlong entry.2 then fail filename (.overlongSymbol name)
  else
    match ReferenceKind.parse (d.plain entry.2) (d.shown entry.2) with
    | .ok kind => return symbols.insert name kind
    | .error error => fail filename (.symbol name error)

/-- The entries of a dictionary under a key; what counts as absent has none. -/
def section? (filename : String) (d : Data) (entries : List (Atom × Nat)) (key : String)
    (problem : ConfigProblem) : ConfigReader (List (Atom × Nat)) :=
  match Data.under? entries key with
  | none => pure []
  | some id =>
      if isVoid d id then pure []
      else
        match dict? d id with
        | some found => pure found
        | none => fail filename problem

/-- The locale tag of a configuration. -/
def localeTag (filename : String) (d : Data) (entries : List (Atom × Nat)) :
    ConfigReader (Option String) :=
  match Data.under? entries "locale" with
  | none => pure none
  | some id =>
      if isNull d id then pure none
      else
        match text? d id with
        | some tag => pure (some tag)
        | none => fail filename .locale

/-- What a configuration gives in place of its locale. -/
def localeOverride (d : Data) (entries : List (Atom × Nat)) :
    ConfigReader (Option LocaleOverride) :=
  match Data.under? entries "decimal_separator" with
  | none => pure none
  | some id =>
      match d.cell id with
      | .atom .null => pure none
      | .atom (.text s) => pure (some (.decimal s))
      | _ =>
          if d.isOverlong id then throw (.value .unwritable)
          else pure (some (.unsupported (d.shown id)))

/-- Read the entries of a configuration. -/
def config (filename : String) (d : Data) (entries : List (Atom × Nat)) : ConfigReader Config := do
  let tag ← localeTag filename d entries
  let profile ← localeProfile tag (← localeOverride d entries)
  let strict ← match Data.under? entries "strict" with
    | none => pure false
    | some id =>
        match truth? d id with
        | some b => pure b
        | none => fail filename .strict
  let pattern ← match Data.under? entries "include" with
    | none => pure "*.yaml"
    | some id =>
        match text? d id with
        | some s => if Text.allBlank s.toList then fail filename .pattern else pure s
        | none => fail filename .pattern
  let rawSymbols ← section? filename d entries "symbols" .symbols
  let symbols ← rawSymbols.foldlM (symbol filename d) OrderedMap.empty
  let rawSources ← section? filename d entries "data_sources" .dataSources
  let sources ← rawSources.foldlM (dataSource filename d) {}
  let others ← unexpected entries
    ["locale", "decimal_separator", "strict", "include", "symbols", "data_sources"]
  unless others.isEmpty do note (.unexpectedFields filename others)
  return {
    locale := tag
    profile
    strict
    pattern
    symbols := .build symbols sources.fields
    capabilities := ⟨sources.capabilities⟩ }

/-- Read configuration data. -/
def ofData (filename : String) (d : Data) : ConfigReader Config :=
  match d.cell d.root with
  | .atom .null => config filename d []
  | .dict entries => config filename d entries
  | _ => fail filename .shape

/-- Read a configuration file. -/
def ofFile (wording : Yaml.Wording) (tree : FileTree) (path : PathName) : ConfigReader Config := do
  match tree.read path with
  | .error error => fail path.name (.unreadable error path)
  | .ok bytes =>
      match fileText? bytes with
      | none => throw .notText
      | some text =>
          match Yaml.load text.toList with
          | .ok data => ofData path.name data
          | .error .malformed => fail path.name (.malformed (wording.ofFile path.text text))
          | .error error => throw (.value error)

end ConfigReader

/-- A configuration or the reason why there is none, with everything that was noticed on the way. -/
abbrev ConfigOutcome := Except ConfigError Config × List ConfigNotice

/-- Read configuration data. -/
def readConfig (filename : String) (d : Data) : ConfigOutcome :=
  (ConfigReader.ofData filename d).run.run []

/-- Read a configuration file. -/
def loadConfig (wording : Yaml.Wording) (tree : FileTree) (path : PathName) : ConfigOutcome :=
  (ConfigReader.ofFile wording tree path).run.run []

end FormulaLint
