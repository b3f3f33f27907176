import FormulaLint.Number.Value

/-!
# Dates and moments

A date is a day of the calendar; a moment adds a time of day and perhaps a zone, given by its
distance from universal time.  Each has a plain text and a form that messages show.
-/

namespace FormulaLint

/-- A number with leading zeros up to a width. -/
def padded (width n : Nat) : String :=
  let digits := natDigits n
  String.ofList (List.replicate (width - digits.length) '0' ++ digits)

/-- A day of the calendar. -/
structure Date where
  year : Nat
  month : Nat
  day : Nat
deriving DecidableEq, Repr

/-- Whether February has a day more. -/
def isLeapYear (year : Nat) : Bool :=
  year % 4 == 0 && (year % 100 != 0 || year % 400 == 0)

/-- The number of days of a month. -/
def daysInMonth (year month : Nat) : Nat :=
  if month = 2 then (if isLeapYear year then 29 else 28)
  else if [4, 6, 9, 11].contains month then 30
  else 31

namespace Date

/-- The number of a day, counted from the first day of the first year. -/
def ordinal (d : Date) : Nat :=
  let before := d.year - 1
  let monthDays :=
    (List.range (d.month - 1)).foldl (fun days m => days + daysInMonth d.year (m + 1)) 0
  before * 365 + before / 4 - before / 100 + before / 400 + monthDays + d.day

/-- The text of a date. -/
def text (d : Date) : String :=
  padded 4 d.year ++ "-" ++ padded 2 d.month ++ "-" ++ padded 2 d.day

/-- A date as a message shows it. -/
def shown (d : Date) : String :=
  "datetime.date(" ++ ", ".intercalate ([d.year, d.month, d.day].map toString) ++ ")"

end Date

/-- A span of whole seconds as a message shows it: full days, and the seconds above them. -/
def shownDuration (seconds : Int) : String :=
  let days := seconds / 86400
  let rest := seconds % 86400
  let parts := (if days = 0 then [] else ["days=" ++ intText days]) ++
    (if rest = 0 then [] else ["seconds=" ++ intText rest])
  "datetime.timedelta(" ++ (if parts.isEmpty then "0" else ", ".intercalate parts) ++ ")"

/-- A date with a time of day, and the seconds by which its zone is ahead of universal time, if the
zone is known. -/
structure Moment where
  date : Date
  hour : Nat
  minute : Nat
  second : Nat
  microsecond : Nat
  offset : Option Int
deriving DecidableEq, Repr

namespace Moment

/-- The seconds from the start of the first day to the moment by its own clock. -/
def seconds (m : Moment) : Int :=
  m.date.ordinal * 86400 + m.hour * 3600 + m.minute * 60 + m.second

/-- Whether two moments are the same point in time.  Moments with and without a zone never are. -/
def same (a b : Moment) : Bool :=
  match a.offset, b.offset with
  | some x, some y => a.seconds - x == b.seconds - y && a.microsecond == b.microsecond
  | none, none => a == b
  | _, _ => false

/-- The text of a zone. -/
def zoneText (offset : Int) : String :=
  let minutes := offset.natAbs / 60
  (if offset < 0 then "-" else "+") ++ padded 2 (minutes / 60) ++ ":" ++ padded 2 (minutes % 60)

/-- The text of a moment. -/
def text (m : Moment) : String :=
  m.date.text ++ " " ++ padded 2 m.hour ++ ":" ++ padded 2 m.minute ++ ":" ++ padded 2 m.second ++
    (if m.microsecond = 0 then "" else "." ++ padded 6 m.microsecond) ++
    (match m.offset with
      | some offset => zoneText offset
      | none => "")

/-- A zone as a message shows it. -/
def shownZone (offset : Int) : String :=
  if offset = 0 then "datetime.timezone.utc"
  else "datetime.timezone(" ++ shownDuration offset ++ ")"

/-- A moment as a message shows it; seconds and fractions of them are left out when they are zero. -/
def shown (m : Moment) : String :=
  let always := [m.date.year, m.date.month, m.date.day, m.hour, m.minute]
  let small :=
    if m.microsecond ≠ 0 then [m.second, m.microsecond]
    else if m.second ≠ 0 then [m.second]
    else []
  let zone := match m.offset with
    | some offset => ["tzinfo=" ++ shownZone offset]
    | none => []
  "datetime.datetime(" ++ ", ".intercalate ((always ++ small).map toString ++ zone) ++ ")"

end Moment

end FormulaLint
