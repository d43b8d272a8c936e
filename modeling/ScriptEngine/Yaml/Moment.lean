import ScriptEngine.Number.Reader

namespace ScriptEngine.Yaml

/-!
# Points in time

A point in time is a date, or a date and a time of day.  The two are divided by the
letter T, and then a distance from universal time follows, or by spaces.  Numbers but
the year may have one digit, and parts of a second are kept to a thousand millionth.
-/

/-- What a time of day refers to. -/
inductive TimeZone where
  | universal
  /-- The zone of the place where the program runs, which is taken to be universal time. -/
  | resident
  /-- A distance from universal time in seconds. -/
  | distant (seconds : Int)
  deriving DecidableEq, Repr

/-- A time of day. -/
structure DayTime where
  hour : Nat := 0
  minute : Nat := 0
  second : Nat := 0
  nanosecond : Nat := 0
  deriving DecidableEq, Repr

/-- A point in time. -/
structure Moment where
  year : Nat
  month : Nat
  day : Nat
  time : DayTime := {}
  zone : TimeZone := .universal
  deriving DecidableEq, Repr

namespace Moment

/-- A number of one or two digits at the front of a text. -/
def shortNumber? : List Char → Option (Nat × List Char)
  | first :: second :: rest =>
      if !first.isDigit then none
      else if second.isDigit then some (Number.digitsValue [first, second], rest)
      else some (Number.digitsValue [first], second :: rest)
  | [first] => if first.isDigit then some (Number.digitsValue [first], []) else none
  | [] => none

/-- The number of days of a month. -/
def monthDays (year month : Nat) : Nat :=
  if month == 2 then
    if (year % 4 == 0 && year % 100 != 0) || year % 400 == 0 then 29 else 28
  else if month == 4 || month == 6 || month == 9 || month == 11 then 30
  else 31

/-- Read a date; gives what follows it. -/
def date? (text : List Char) : Option (Moment × List Char) := do
  let digits := text.takeWhile Char.isDigit
  guard (digits.length == 4)
  let year := Number.digitsValue digits
  let '-' :: rest := text.drop 4 | none
  let (month, rest) ← shortNumber? rest
  guard (1 ≤ month && month ≤ 12)
  let '-' :: rest := rest | none
  let (day, rest) ← shortNumber? rest
  guard (1 ≤ day && day ≤ monthDays year month)
  return ({ year := year, month := month, day := day }, rest)

/-- Read parts of a second, zero if there are none; gives what follows them. -/
def fraction (text : List Char) : Nat × List Char :=
  match text with
  | mark :: digit :: rest =>
      if (mark == '.' || mark == ',') && digit.isDigit then
        let digits := (digit :: rest.takeWhile Char.isDigit).take 9
        (Number.digitsValue (digits ++ List.replicate (9 - digits.length) '0'),
          rest.dropWhile Char.isDigit)
      else (0, text)
  | _ => (0, text)

/-- Read a time of day; gives what follows it. -/
def time? (text : List Char) : Option (DayTime × List Char) := do
  let (hour, rest) ← shortNumber? text
  guard (hour < 24)
  let ':' :: rest := rest | none
  let (minute, rest) ← shortNumber? rest
  guard (minute < 60)
  let ':' :: rest := rest | none
  let (second, rest) ← shortNumber? rest
  guard (second < 60)
  let (nanosecond, rest) := fraction rest
  return (⟨hour, minute, second, nanosecond⟩, rest)

/-- Read a text that is a distance from universal time. -/
def zone? : List Char → Option TimeZone
  | ['Z'] => some .universal
  | [sign, h1, h2, ':', m1, m2] =>
      let hours := Number.digitsValue [h1, h2]
      let minutes := Number.digitsValue [m1, m2]
      if (sign == '+' || sign == '-') && [h1, h2, m1, m2].all Char.isDigit &&
          hours ≤ 24 && minutes ≤ 60 then
        let size := Int.ofNat ((hours * 60 + minutes) * 60)
        some (if size = 0 then .resident else .distant (if sign == '-' then -size else size))
      else none
  | _ => none

/-- Read what follows a date: nothing, a time of day after spaces, or one with a zone. -/
def afterDate? (moment : Moment) : List Char → Option Moment
  | [] => some moment
  | divider :: rest =>
      if divider == 'T' || divider == 't' then do
        let (time, after) ← time? rest
        let zone ← zone? after
        return { moment with time := time, zone := zone }
      else if divider == ' ' then
        match time? (rest.dropWhile (· == ' ')) with
        | some (time, []) => some { moment with time := time }
        | _ => none
      else none

/-- Read a point in time. -/
def ofText? (text : List Char) : Option Moment := do
  let (moment, rest) ← date? text
  afterDate? moment rest

/-- The number of days before a date, from the start of the calendar on. -/
def daysBefore (moment : Moment) : Nat :=
  let years := moment.year + 399
  let months := (List.range (moment.month - 1)).map fun index => monthDays moment.year (index + 1)
  years * 365 + years / 4 - years / 100 + years / 400 +
    months.foldl (fun total days => total + days) 0 + moment.day

/-- The second a point in time falls into, counted from a fixed one. -/
def seconds (moment : Moment) : Int :=
  let clock := (moment.time.hour * 60 + moment.time.minute) * 60 + moment.time.second
  let distance := match moment.zone with
    | .distant seconds => seconds
    | _ => 0
  Int.ofNat (moment.daysBefore * 86400 + clock) - distance

/-- The order of points in time as keys: by the part of a second first. -/
def before (left right : Moment) : Bool :=
  left.time.nanosecond < right.time.nanosecond ||
    (left.time.nanosecond == right.time.nanosecond && left.seconds < right.seconds)

/-- The names of the months. -/
def monthNames : List String :=
  ["January", "February", "March", "April", "May", "June", "July", "August", "September",
    "October", "November", "December"]

/-- The name of a zone as messages show it. -/
def zoneText : TimeZone → String
  | .universal => "time.UTC"
  | .resident => "time.Local"
  | .distant _ => "time.Location(\"\")"

/-- A point in time as messages show it. -/
def text (moment : Moment) : String :=
  let numbers := [moment.day, moment.time.hour, moment.time.minute, moment.time.second,
    moment.time.nanosecond]
  "time.Date(" ++ ", ".intercalate
    (toString moment.year :: ("time." ++ monthNames.getD (moment.month - 1) "") ::
      numbers.map toString ++ [zoneText moment.zone]) ++ ")"

end Moment

end ScriptEngine.Yaml
