import FormulaLint.Text.Blank
import FormulaLint.Text.Shown

/-!
# Authoring locales

Where decimals are written with a comma, list items are separated by a semicolon and chained
expressions by two.  Everywhere else the separators are the point, the comma and one semicolon.
A locale tag such as {lit}`de-DE` selects one of these two profiles.
-/

namespace FormulaLint

/-- The three separators of a formula text. -/
structure Separators where
  decimal : String
  list : String
  chaining : String
deriving DecidableEq, Repr

/-- The two ways of writing formulas. -/
inductive Profile where
  | dotDecimal
  | commaDecimal
deriving DecidableEq, Repr

namespace Profile

/-- The separators of a profile. -/
def separators : Profile → Separators
  | dotDecimal => ⟨".", ",", ";"⟩
  | commaDecimal => ⟨",", ";", ";;"⟩

/-- The character between the whole part and the fraction of a number. -/
def decimalChar : Profile → Char
  | dotDecimal => '.'
  | commaDecimal => ','

/-- The separator between list items. -/
def listSeparator (p : Profile) : String :=
  p.separators.list

/-- The separator between chained expressions. -/
def chainingSeparator (p : Profile) : String :=
  p.separators.chaining

end Profile

namespace Separators

/-- The profile that uses exactly these separators. -/
def profile? (s : Separators) : Option Profile :=
  if s = Profile.dotDecimal.separators then some .dotDecimal
  else if s = Profile.commaDecimal.separators then some .commaDecimal
  else none

/-- Separators as a message shows them. -/
def shown (s : Separators) : String :=
  "LocaleProfile(decimal_separator=" ++ Text.shown s.decimal ++ ", list_separator=" ++
    Text.shown s.list ++ ", chaining_separator=" ++ Text.shown s.chaining ++ ")"

end Separators

/-- Why no profile can be given. -/
inductive LocaleError where
  | decimalSeparator (shown : String)
  | inconsistentSeparators (separators : Separators)
  | unsupportedOverride (shown : String)
  | tagNotText (typeName : String)
  | malformedTag (tag : String)
deriving DecidableEq, Repr

namespace LocaleError

/-- The wording of a locale error. -/
def message : LocaleError → String
  | decimalSeparator shown =>
      "Unsupported decimal separator " ++ shown ++ " (expected '.' or ',')"
  | inconsistentSeparators separators =>
      "Inconsistent locale profile override: " ++ separators.shown
  | unsupportedOverride shown => "Unsupported locale override: " ++ shown
  | tagNotText typeName => "Locale tag must be a string, got " ++ typeName
  | malformedTag tag => "Malformed locale tag: " ++ Text.shown tag

end LocaleError

/-- The profile with the given decimal separator. -/
def Profile.ofDecimalSeparator (separator : String) : Except LocaleError Profile :=
  if separator = "." then .ok .dotDecimal
  else if separator = "," then .ok .commaDecimal
  else .error (.decimalSeparator (Text.shown separator))

/-- Something given in place of a locale tag. -/
inductive LocaleOverride where
  | separators (separators : Separators)
  | decimal (separator : String)
  | unsupported (shown : String)
deriving DecidableEq, Repr

namespace LocaleOverride

/-- The profile that an override stands for. -/
def profile : LocaleOverride → Except LocaleError Profile
  | separators s =>
      match s.profile? with
      | some p => .ok p
      | none => .error (.inconsistentSeparators s)
  | decimal separator => Profile.ofDecimalSeparator separator
  | unsupported shown => .error (.unsupportedOverride shown)

end LocaleOverride

/-! ## Locale tags -/

/-- What is given as a locale tag: a text, or a value of another type. -/
inductive LocaleTag where
  | text (tag : String)
  | other (typeName : String)
deriving DecidableEq, Repr

/-- A language with an optional region, in lower case. -/
structure LanguageRegion where
  language : String
  region : Option String
deriving DecidableEq, Repr

namespace LanguageRegion

/-- Whether a character separates the subtags of a tag. -/
def isSubtagSeparator (c : Char) : Bool :=
  c == '-' || c == '_'

/-- Split a text at every subtag separator. -/
def splitSubtags (cs : List Char) : List (List Char) :=
  cs.foldr (fun c parts =>
    if isSubtagSeparator c then [] :: parts
    else match parts with
      | [] => [[c]]
      | part :: rest => (c :: part) :: rest) [[]]

/-- Whether a text is a subtag: one to eight ASCII letters and digits. -/
def isSubtag (cs : List Char) : Bool :=
  1 ≤ cs.length && cs.length ≤ 8 && cs.all Char.isAlphanum

/-- Whether a text is a language: two or three ASCII letters. -/
def isLanguage (cs : List Char) : Bool :=
  2 ≤ cs.length && cs.length ≤ 3 && cs.all Char.isAlpha

/-- Whether a subtag is a region: two letters or three digits. -/
def isRegion (cs : List Char) : Bool :=
  (cs.length == 2 && cs.all Char.isAlpha) || (cs.length == 3 && cs.all Char.isDigit)

/-- Read a locale tag; blanks at either end do not count. -/
def ofTag? (tag : String) : Option LanguageRegion :=
  match splitSubtags (Text.trim tag.toList) with
  | [] => none
  | language :: subtags =>
      if isLanguage language && subtags.all isSubtag then
        some ⟨String.ofList (language.map Char.toLower),
          (subtags.find? isRegion).map fun region => String.ofList (region.map Char.toLower)⟩
      else none

/-- Languages that write decimals with a comma unless their region says otherwise. -/
def commaDecimalLanguages : List String :=
  ["az", "be", "bg", "bs", "ca", "cs", "da", "de", "el", "es", "et", "eu",
   "fi", "fo", "fr", "gl", "hr", "hu", "hy", "id", "is", "it", "ka", "kk",
   "ky", "lb", "lt", "lv", "mk", "mn", "nb", "nl", "nn", "no", "pl", "pt",
   "ro", "ru", "sk", "sl", "sq", "sr", "sv", "tr", "uk", "uz", "vi"]

/-- Regions that write decimals with a point although their language does not. -/
def dotDecimalRegions : List (String × String) :=
  [("de", "ch"), ("de", "li"), ("fr", "ch"), ("it", "ch"),
   ("es", "mx"), ("es", "us"), ("es", "pr"), ("es", "gt"), ("es", "do"),
   ("es", "hn"), ("es", "ni"), ("es", "pa"), ("es", "sv")]

/-- Regions that write decimals with a comma although their language does not. -/
def commaDecimalRegions : List (String × String) :=
  [("en", "za")]

/-- Whether a language with its region is listed. -/
def listedIn (l : LanguageRegion) (regions : List (String × String)) : Bool :=
  match l.region with
  | some region => regions.contains (l.language, region)
  | none => false

/-- The profile of a language with its region. -/
def profile (l : LanguageRegion) : Profile :=
  if l.listedIn dotDecimalRegions then .dotDecimal
  else if l.listedIn commaDecimalRegions || commaDecimalLanguages.contains l.language then
    .commaDecimal
  else .dotDecimal

end LanguageRegion

/-- The profile of a locale tag. -/
def Profile.ofTag : LocaleTag → Except LocaleError Profile
  | .other typeName => .error (.tagNotText typeName)
  | .text tag =>
      match LanguageRegion.ofTag? tag with
      | some l => .ok l.profile
      | none => .error (.malformedTag tag)

/-- The profile of an authoring locale.  An override wins over the tag, and without either the
point is the decimal separator. -/
def resolveLocale (tag : Option LocaleTag) (override : Option LocaleOverride) :
    Except LocaleError Profile :=
  match override, tag with
  | some o, _ => o.profile
  | none, none => .ok .dotDecimal
  | none, some t => Profile.ofTag t

end FormulaLint
