import FormulaLint.Data.Atom
import FormulaLint.Text.DecimalDigit
import FormulaLint.Text.LetterCase
import FormulaLint.Text.Split
import FormulaLint.Yaml.Error

/-!
# Values of scalars

The text of a scalar is turned into the value that its tag promises: truth values, whole numbers to
several bases, numbers with a point, bytes and timestamps.  A tag may be given to a text that does
not have its form; then there is no value.
-/

namespace FormulaLint.Yaml

/-! ## Truth values -/

/-- The truth value of a word in lower case. -/
def truthOf (text : String) : Except ReadError Bool :=
  let word := Text.lower text
  if ["yes", "true", "on"].contains word then .ok true
  else if ["no", "false", "off"].contains word then .ok false
  else .error .noTruthValue

/-! ## Numbers -/

/-- The value of a digit to a base, if it is one. -/
def digitValue? (base : Nat) (c : Char) : Option Nat :=
  let value :=
    if c.isDigit then c.toNat - 48
    else if 'a' ≤ c ∧ c ≤ 'z' then c.toNat - 87
    else if 'A' ≤ c ∧ c ≤ 'Z' then c.toNat - 55
    else base
  if value < base then some value else none

/-- The letter that may stand behind a zero to announce a base. -/
def baseLetter (base : Nat) (c : Char) : Bool :=
  (base == 2 && (c == 'b' || c == 'B')) || (base == 8 && (c == 'o' || c == 'O')) ||
    (base == 16 && (c == 'x' || c == 'X'))

/-- The digits of a number without the mark of its base. -/
def withoutBaseMark (base : Nat) : List Char → List Char
  | '0' :: c :: rest => if baseLetter base c then rest else '0' :: c :: rest
  | cs => cs

/-- The values of the digits to a base at the start of a text, and what follows them. -/
def digitValues (base : Nat) : List Char → List Nat × List Char
  | [] => ([], [])
  | c :: rest =>
      match digitValue? base c with
      | some value =>
          let (values, others) := digitValues base rest
          (value :: values, others)
      | none => ([], c :: rest)

/-- Whether a text starts with a minus sign, and the text without a sign. -/
def withoutSign : List Char → Bool × List Char
  | '-' :: rest => (true, rest)
  | '+' :: rest => (false, rest)
  | cs => (false, cs)

/-- The whole number that a text stands for to a base.  Blanks around it and a sign are allowed; too
many decimal digits are refused before anything that follows them. -/
def wholeOf (base : Nat) (text : List Char) : Except ReadError Int :=
  let (negative, body) := withoutSign (Text.numeral text)
  let (digits, rest) := digitValues base (withoutBaseMark base body)
  if base = 10 ∧ 4300 < digits.length then .error (.overlong digits.length)
  else if digits.isEmpty || !rest.isEmpty then .error (.wholeNumber base (String.ofList text))
  else
    let n := digits.foldl (fun n digit => n * base + digit) 0
    .ok (if negative then -(n : Int) else n)

/-- The whole number of a scalar: to base two, eight, ten, sixteen or sixty, by its form. -/
def wholeNumber (text : String) : Except ReadError Int := do
  let cs := text.toList.filter (· ≠ '_')
  if cs.isEmpty then .error .noDigits
  else
    let (negative, cs) := withoutSign cs
    let value ← match cs with
      | [] => .error .noDigits
      | ['0'] => pure 0
      | '0' :: 'b' :: rest => wholeOf 2 rest
      | '0' :: 'x' :: rest => wholeOf 16 rest
      | '0' :: _ => wholeOf 8 cs
      | _ =>
          if cs.contains ':' then do
            let parts ← (Text.split ':' cs).mapM (wholeOf 10)
            pure (parts.foldl (fun n part => n * 60 + part) 0)
          else wholeOf 10 cs
    return if negative then -value else value

/-- The digits, point and exponent of a decimal number in lower case, if a text has that form. -/
def isDecimal (cs : List Char) : Bool :=
  let whole := cs.takeWhile Char.isDigit
  let rest := cs.dropWhile Char.isDigit
  let (fraction, rest) := match rest with
    | '.' :: rest => (rest.takeWhile Char.isDigit, rest.dropWhile Char.isDigit)
    | rest => ([], rest)
  let power := match rest with
    | [] => true
    | 'e' :: rest =>
        let digits := (withoutSign rest).2
        !digits.isEmpty && digits.all Char.isDigit
    | _ => false
  (!whole.isEmpty || !fraction.isEmpty) && power

/-- The number with a point that a text in lower case stands for. -/
def fractionOf (cs : List Char) : Except ReadError Double :=
  let (negative, body) := withoutSign (Text.numeral cs)
  let word := String.ofList body
  if word = "inf" ∨ word = "infinity" then .ok (.infinity negative)
  else if word = "nan" then .ok .notANumber
  else if isDecimal body then .ok ((Decimal.ofChars body).toDouble negative)
  else .error (.fraction (String.ofList cs))

/-- The parts of a number to base sixty, from the last one on, summed up in double precision. -/
def sumSixties (parts : List Double) : Double :=
  (parts.reverse.foldl (fun (state : Double × Nat) part =>
    (state.1.add (part.mul (.ofNat state.2)), state.2 * 60)) (Double.ofNat 0, 1)).1

/-- The number with a point of a scalar. -/
def fractionNumber (text : String) : Except ReadError Double := do
  let cs := (Text.lower (String.ofList (text.toList.filter (· ≠ '_')))).toList
  if cs.isEmpty then .error .noDigits
  else
    let (negative, cs) := withoutSign cs
    if cs = ".nan".toList then return .notANumber
    else
      let value ←
        if cs = ".inf".toList then pure (.infinity false)
        else if cs.contains ':' then do
          let parts ← (Text.split ':' cs).mapM fractionOf
          pure (sumSixties parts)
        else fractionOf cs
      return if negative && !value.isNaN then value.negate else value

/-! ## Bytes -/

/-- The value of a base 64 digit. -/
def base64Value? (c : Char) : Option Nat :=
  if 'A' ≤ c ∧ c ≤ 'Z' then some (c.toNat - 65)
  else if 'a' ≤ c ∧ c ≤ 'z' then some (c.toNat - 71)
  else if c.isDigit then some (c.toNat + 4)
  else if c = '+' then some 62
  else if c = '/' then some 63
  else none

/-- Decode base 64 from a place within a group of four digits: {lit}`place` digits of it were read,
{lit}`left` is what they leave over, and {lit}`pads` padding marks came after them.  Other characters
are skipped, and complete padding ends the text. -/
def base64From (place left pads : Nat) (bytes : List Nat) : List Char → Option (List Nat)
  | [] => if place = 0 then some bytes.reverse else none
  | c :: rest =>
      if c = '=' then
        if 2 ≤ place then
          if 4 ≤ place + (pads + 1) then some bytes.reverse
          else base64From place left (pads + 1) bytes rest
        else base64From place left pads bytes rest
      else
        match base64Value? c with
        | none => base64From place left pads bytes rest
        | some v =>
            match place with
            | 0 => base64From 1 v 0 bytes rest
            | 1 => base64From 2 (v % 16) 0 ((left * 4 + v / 16) :: bytes) rest
            | 2 => base64From 3 (v % 4) 0 ((left * 16 + v / 4) :: bytes) rest
            | _ => base64From 0 0 0 ((left * 64 + v) :: bytes) rest

/-- The bytes of a scalar in base 64. -/
def bytesOf (text : String) : Except ReadError (List Nat) :=
  if text.toList.any (fun c => 0x80 ≤ c.toNat) then .error .malformed
  else
    match base64From 0 0 0 [] text.toList with
    | some bytes => .ok bytes
    | none => .error .malformed

/-! ## Timestamps -/

/-- Between {lit}`least` and {lit}`most` digits at the start of a text, as many as there are, and what
follows them. -/
def someDigits? (least most : Nat) (cs : List Char) : Option (Nat × List Char) :=
  let digits := (cs.take most).takeWhile Char.isDigit
  if least ≤ digits.length then some (natOfDigits digits, cs.drop digits.length) else none

/-- What follows a character at the start of a text. -/
def after? (c : Char) : List Char → Option (List Char)
  | d :: rest => if d = c then some rest else none
  | [] => none

/-- The zone at the end of a timestamp, in seconds ahead of universal time; nothing may follow. -/
def zone? (cs : List Char) : Option (Option Int) :=
  let atEnd := fun (rest : List Char) => rest == [] || rest == ['\n']
  if atEnd cs then some none
  else
    match cs.dropWhile (fun c => c == ' ' || c == '\t') with
    | 'Z' :: rest => if atEnd rest then some (some 0) else none
    | c :: rest => do
        if c ≠ '+' ∧ c ≠ '-' then none
        else
          let (hours, rest) ← someDigits? 1 2 rest
          let (minutes, rest) ← match rest with
            | ':' :: rest => someDigits? 2 2 rest
            | rest => some (0, rest)
          let offset : Int := hours * 3600 + minutes * 60
          if atEnd rest then some (some (if c = '-' then -offset else offset)) else none
    | [] => none

/-- The first six digits of a fraction, as millionths. -/
def millionths (digits : List Char) : Nat :=
  let six := digits.take 6
  natOfDigits (six ++ List.replicate (6 - six.length) '0')

/-- The time of day and the zone behind the date of a timestamp. -/
def timeOfDay? (date : Date) (cs : List Char) : Option Moment := do
  let cs ← match cs with
    | 'T' :: rest | 't' :: rest => some rest
    | ' ' :: rest | '\t' :: rest => some (rest.dropWhile (fun c => c == ' ' || c == '\t'))
    | _ => none
  let (hour, cs) ← someDigits? 1 2 cs
  let (minute, cs) ← someDigits? 2 2 (← after? ':' cs)
  let (second, cs) ← someDigits? 2 2 (← after? ':' cs)
  let (fraction, cs) := match cs with
    | '.' :: rest => (rest.takeWhile Char.isDigit, rest.dropWhile Char.isDigit)
    | cs => ([], cs)
  let offset ← zone? cs
  return ⟨date, hour, minute, second, millionths fraction, offset⟩

/-- Check that a date exists. -/
def checkDate (d : Date) : Except ReadError Unit :=
  if d.year = 0 then .error (.year d.year)
  else if d.month = 0 ∨ 12 < d.month then .error .month
  else if d.day = 0 ∨ daysInMonth d.year d.month < d.day then .error .day
  else .ok ()

/-- Check that a moment exists: first its zone, then its date, then its time of day. -/
def checkMoment (m : Moment) : Except ReadError Unit := do
  match m.offset with
  | some offset =>
      if 86400 ≤ offset.natAbs then .error (.zoneOffset (shownDuration offset))
  | none => pure ()
  checkDate m.date
  if 24 ≤ m.hour then .error .hour
  else if 60 ≤ m.minute then .error .minute
  else if 60 ≤ m.second then .error .second
  else .ok ()

/-- The date or moment of a scalar. -/
def timestampOf (text : String) : Except ReadError Atom :=
  let parsed : Option (Date × List Char) := do
    let (year, cs) ← someDigits? 4 4 text.toList
    let (month, cs) ← someDigits? 1 2 (← after? '-' cs)
    let (day, cs) ← someDigits? 1 2 (← after? '-' cs)
    return (⟨year, month, day⟩, cs)
  match parsed with
  | none => .error .noTimestamp
  | some (date, cs) =>
      if cs = [] ∨ cs = ['\n'] then do
        checkDate date
        return .date date
      else
        match timeOfDay? date cs with
        | none => .error .noTimestamp
        | some moment => do
            checkMoment moment
            return .moment moment

end FormulaLint.Yaml
