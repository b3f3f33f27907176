import FormulaLint.Files.PathName
import FormulaLint.Text.DecimalDigit
import FormulaLint.Text.Lines
import FormulaLint.Text.Shown

/-!
# Command line arguments

A command line names a directory and gives options.  A long option may be cut short as long as one
option alone is meant, and its value stands behind an equals sign or as the next argument.  Behind two
hyphens everything is a plain argument; so is what looks like a negative number or holds a space.
First every argument is classified, then the arguments are taken up one after the other.
-/

namespace FormulaLint

/-- An option of the command line. -/
inductive CommandOption where
  | help
  | config
  | strict
  | locale
  | verbose
deriving DecidableEq, Repr

namespace CommandOption

/-- Every option, in the order in which they are told. -/
def all : List CommandOption :=
  [help, config, strict, locale, verbose]

/-- The long word for an option. -/
def word : CommandOption → String
  | help => "--help"
  | config => "--config"
  | strict => "--strict"
  | locale => "--locale"
  | verbose => "--verbose"

/-- The words for an option as a message tells them. -/
def title : CommandOption → String
  | help => "-h/--help"
  | option => option.word

/-- Whether an option has a value. -/
def hasValue : CommandOption → Bool
  | config | locale => true
  | help | strict | verbose => false

/-- The options whose word starts with a text. -/
def startingWith (cs : List Char) : List CommandOption :=
  all.filter fun option => cs.isPrefixOf option.word.toList

end CommandOption

/-- Why a command line cannot be used. -/
inductive ArgumentError where
  | ambiguous (argument : String) (options : List CommandOption)
  | missingValue (option : CommandOption)
  | ignoredValue (option : CommandOption) (value : String)
  | unrecognized (arguments : List String)
deriving DecidableEq, Repr

namespace ArgumentError

/-- The wording of an argument error. -/
def message : ArgumentError → String
  | ambiguous argument options =>
      "ambiguous option: " ++ argument ++ " could match " ++
        ", ".intercalate (options.map CommandOption.word)
  | missingValue option => "argument " ++ option.title ++ ": expected one argument"
  | ignoredValue option value =>
      "argument " ++ option.title ++ ": ignored explicit argument " ++ Text.shown value
  | unrecognized arguments => "unrecognized arguments: " ++ " ".intercalate arguments

end ArgumentError

/-- A classified argument. -/
inductive Argument where
  /-- Neither an option nor the end of them. -/
  | plain (text : String)
  /-- Two hyphens, behind which there are no options. -/
  | endOfOptions
  /-- An option, with a value behind an equals sign if there is one. -/
  | option (option : CommandOption) (value : Option String)
  /-- The short word for help, and what stands directly behind it. -/
  | shortHelp (rest : List Char)
  /-- Something that looks like an option and is none. -/
  | unknown (text : String)
deriving DecidableEq, Repr

/-- What a command line asks for: the directory to lint, the configuration file, and settings that
win over it. -/
structure CommandLine where
  directory : Option PathName := none
  config : Option PathName := none
  strict : Bool := false
  locale : Option String := none
  verbose : Bool := false
deriving DecidableEq, Repr

/-- What a user asks for. -/
inductive CommandRequest where
  | help
  | run (line : CommandLine)
deriving DecidableEq, Repr

namespace CommandLine

/-! ## Classification -/

/-- Whether an argument looks like a negative number.  A line feed at the end does not count. -/
def looksNegative (cs : List Char) : Bool :=
  match (if cs.getLast? = some '\n' then cs.dropLast else cs) with
  | '-' :: body =>
      let fraction := body.dropWhile Text.isDecimalDigit
      match fraction with
      | [] => !body.isEmpty
      | '.' :: digits => !digits.isEmpty && digits.all Text.isDecimalDigit
      | _ => false
  | _ => false

/-- The part of a text in front of the first equals sign, and the part behind it if there is one. -/
def splitValue (cs : List Char) : List Char × Option String :=
  match cs.dropWhile (· != '=') with
  | [] => (cs, none)
  | _ :: value => (cs.takeWhile (· != '='), some (String.ofList value))

/-- Classify what is no option. -/
def classifyOther (text : String) : Argument :=
  let cs := text.toList
  if looksNegative cs || cs.contains ' ' then .plain text else .unknown text

/-- Classify an argument that starts with two hyphens. -/
def classifyLong (text : String) : Except ArgumentError Argument :=
  let (word, value) := splitValue text.toList
  match CommandOption.all.find? fun option => option.word.toList = word with
  | some option => .ok (.option option value)
  | none =>
      match CommandOption.startingWith word with
      | [] => .ok (classifyOther text)
      | [option] => .ok (.option option value)
      | options => .error (.ambiguous text options)

/-- Classify an argument. -/
def classify (text : String) : Except ArgumentError Argument :=
  match text.toList with
  | '-' :: '-' :: _ => classifyLong text
  | ['-'] => .ok (.plain text)
  | ['-', 'h'] => .ok (.option .help none)
  | '-' :: 'h' :: rest => .ok (.shortHelp rest)
  | '-' :: _ => .ok (classifyOther text)
  | _ => .ok (.plain text)

/-- Classify all arguments. -/
def classifyAll : List String → Except ArgumentError (List Argument)
  | [] => .ok []
  | text :: rest =>
      if text = "--" then .ok (.endOfOptions :: rest.map .plain)
      else do
        let argument ← classify text
        return argument :: (← classifyAll rest)

/-! ## Taking up arguments -/

/-- What the arguments so far ask for. -/
structure Reading where
  line : CommandLine := {}
  /-- Whether the place of the directory is taken. -/
  placed : Bool := false
  /-- The arguments that nothing takes up. -/
  left : List String := []

/-- Take up an option with a value. -/
def Reading.setValue (r : Reading) (option : CommandOption) (value : String) : Reading :=
  match option with
  | .config => { r with line := { r.line with config := some (.ofText value) } }
  | .locale => { r with line := { r.line with locale := some value } }
  | .help | .strict | .verbose => r

/-- Take up an option without a value. -/
def Reading.setFlag (r : Reading) (option : CommandOption) : Reading :=
  match option with
  | .strict => { r with line := { r.line with strict := true } }
  | .verbose => { r with line := { r.line with verbose := true } }
  | .help | .config | .locale => r

/-- Take up the directory. -/
def Reading.place (r : Reading) (directory : Option String) : Reading :=
  { r with placed := true, line := { r.line with directory := directory.map .ofText } }

/-- Leave an argument over. -/
def Reading.leave (r : Reading) (text : String) : Reading :=
  { r with left := r.left ++ [text] }

/-- The outcome when all arguments are taken up. -/
def Reading.finish (r : Reading) : Except ArgumentError CommandRequest :=
  if r.left.isEmpty then .ok (.run r.line) else .error (.unrecognized r.left)

/-- The outcome of asking for help by its short word.  What stands behind it may be the same word
again, and must not be a value. -/
def shortHelpOutcome : List Char → Except ArgumentError CommandRequest
  | '=' :: value => .error (.ignoredValue .help (String.ofList value))
  | '-' :: value => .error (.ignoredValue .help (String.ofList ('-' :: value)))
  | 'h' :: rest => shortHelpOutcome rest
  | _ => .ok .help

/-- Take up arguments one after the other.  Asking for help ends it. -/
def Reading.take (r : Reading) : List Argument → Except ArgumentError CommandRequest
  | [] => r.finish
  | .unknown text :: rest => (r.leave text).take rest
  | .shortHelp more :: _ => shortHelpOutcome more
  | .option option (some value) :: rest =>
      if option.hasValue then (r.setValue option value).take rest
      else .error (.ignoredValue option value)
  | .option option none :: rest =>
      if option = .help then .ok .help
      else if option.hasValue then
        match rest with
        | .plain value :: rest => (r.setValue option value).take rest
        | _ => .error (.missingValue option)
      else (r.setFlag option).take rest
  | .plain text :: .endOfOptions :: rest =>
      if r.placed then ((r.leave text).leave "--").take rest else (r.place (some text)).take rest
  | .plain text :: rest =>
      if r.placed then (r.leave text).take rest else (r.place (some text)).take rest
  | .endOfOptions :: rest =>
      if r.placed then (r.leave "--").take rest
      else
        match rest with
        | .plain text :: rest => (r.place (some text)).take rest
        | rest => (r.place none).take rest

/-- What a list of arguments asks for. -/
def parse (arguments : List String) : Except ArgumentError CommandRequest := do
  let classified ← classifyAll arguments
  Reading.take {} classified

end CommandLine

end FormulaLint
