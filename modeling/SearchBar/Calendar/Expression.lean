import SearchBar.Calendar.Granularity
import SearchBar.Calendar.Timestamp

/-! # Date expressions

A date value remembers the period that it stands for and the form in which it was
written, so that it can be written again in that form: `last month` stays
`last month` for as long as it is. Every function takes the present instant.

Forms overlap, and the first one that accepts a text wins: days, months, years,
weeks, times of day, timestamps.
-/

namespace SearchBar.Calendar

open Text

/-- An instant with the period and the form that it was written in. -/
structure DateValue where
  instant : Instant
  granularity : Option Granularity := none
  format : Option String := none
deriving Repr

namespace DateValue

/-- Dates are equal if their instants and periods are, whatever their form. -/
instance : BEq DateValue :=
  ⟨fun a b => a.instant == b.instant && a.granularity == b.granularity⟩

theorem beq_iff {a b : DateValue} :
    (a == b) = true ↔ a.instant = b.instant ∧ a.granularity = b.granularity := by
  show (a.instant == b.instant && a.granularity == b.granularity) = true ↔ _
  simp

/-- The unit of the window of a value; a value without a period covers its day. -/
def unit (d : DateValue) : Granularity := d.granularity.getD .day

def opening (d : DateValue) : Instant := d.unit.start d.instant

def closing (d : DateValue) : Instant := d.unit.next d.instant

end DateValue

def isoFormat : String := "ISO_8601"

def mailFormat : String := "RFC_2822"

def weekFormat : String := "week N"

/-- The words for days near the present one, with their distances. -/
def dayWords : List (String × Int) := [("today", 0), ("yesterday", -1), ("tomorrow", 1)]

def periodWords : List String := ["this", "last", "next"]

/-- `this week`, `last year` and so on. -/
def phrase (word : String) (g : Granularity) : String := word ++ " " ++ g.name

/-- A week belongs to the year of its Saturday, and the weeks of a year are counted
from one. -/
def weekNumber (day : Int) : Int :=
  let first := Granularity.week.startDay day
  (first - Granularity.week.startDay (yearStart (yearOf (first + 6)))) / 7 + 1

section Reading

variable (now : Instant) (text : List Char)

def tagged (t : Instant) (g : Granularity) (format : String) : DateValue :=
  { instant := t, granularity := some g, format := some format }

def readPatterns? (g : Granularity) (patterns : List Pattern) (completion : List Char)
    (completedBy : List Field) : Option DateValue :=
  patterns.findSome? fun p =>
    (p.readDay? completion completedBy text).map fun d => tagged (.midnight d) g p.name

def readDayWord? : Option DateValue :=
  (dayWords.find? fun w => w.1.toList == lower text).map fun w =>
    tagged (Granularity.day.start (now.addDays w.2)) .day w.1

def readWeekday? : Option DateValue :=
  Pattern.weekdays.findSome? fun p =>
    ((List.range 7).map fun n : Nat => (Granularity.week.start now).addDays n).findSome? fun t =>
      if sameLetters (p.write t) text then some (tagged t .day p.name) else none

def readDay? : Option DateValue :=
  readDayWord? now text <|> readWeekday? now text <|> readPatterns? text .day Pattern.days [] []

/-- A period near the present one, in the words that a function gives an instant for. -/
def readPhrase? (g : Granularity) (instantOf : String → Option Instant) : Option DateValue :=
  periodWords.findSome? fun word =>
    if (phrase word g).toList == lower text then
      (instantOf word).map fun t => tagged (g.start t) g (phrase word g)
    else none

def readMonth? : Option DateValue :=
  let year := ' ' :: (toString (yearOf now.day)).toList
  readPhrase? text .month (fun
    | "this" => some now
    | "next" => some (Granularity.month.next now)
    | _ => some ((Granularity.month.start now).addDays (-2)))
  <|> readPatterns? text .month Pattern.bareMonths (year ++ [' ', '1'])
    [.gap, .year, .gap, .day true]
  <|> readPatterns? text .month Pattern.months [' ', '1'] [.gap, .day true]

def readYear? : Option DateValue :=
  readPhrase? text .year (fun
    | "this" => some now
    | "next" => some (Granularity.year.next now)
    | _ => some (Granularity.year.shift (Granularity.year.start now) (-1)))
  <|> readPatterns? text .year Pattern.years "-01-01".toList
    [.literal '-', .month, .literal '-', .day true]

/-- The word `week` and a blank in letters of any case. The sign for kelvins is a
letter K. -/
def takeWeekWord? : List Char → Option (List Char)
  | w :: e :: e' :: k :: ' ' :: rest =>
    if (w.toLower == 'w') && (e.toLower == 'e') && (e'.toLower == 'e') &&
        (k.toLower == 'k' || k == '\u212a') then some rest
    else none
  | _ => none

def readWeekDigits? : Option Nat := do
  let digits ← takeWeekWord? text
  if digits.isEmpty || decide (2 < digits.length) || !digits.all Char.isDigit then none
  else some (Decimal.natOfDigits digits)

/-- The first day of a week of the present year by its number. -/
def numberedWeek (n : Nat) : Int :=
  Granularity.week.startDay (yearStart (yearOf now.day)) + 7 * (n - 1)

def readWeekNumber? : Option DateValue := do
  let n ← readWeekDigits? text
  let day := numberedWeek now n
  if 1 ≤ n ∧ n ≤ 53 ∧ weekNumber day = n then some (tagged (.midnight day) .week weekFormat)
  else none

def readWeek? : Option DateValue :=
  readPhrase? text .week (fun
    | "this" => some now
    | "next" => some (Granularity.week.shift now 1)
    | _ => some (Granularity.week.shift now (-1)))
  <|> readWeekNumber? now text

/-- A time of the present day, exactly as its pattern writes it. -/
def readTime? : Option DateValue :=
  Pattern.times.findSome? fun p =>
    ((readFields? p.fields {} text).bind (Parts.at? · now.day)).bind fun t =>
      if p.write t == text then some { instant := t, format := some p.name } else none

def readTimestampPattern? : Option DateValue :=
  Pattern.timestamps.findSome? fun p =>
    ((readFields? p.fields {} text).bind Parts.instant?).bind fun t =>
      if sameLetters (p.write t) text then some { instant := t, format := some p.name } else none

def readTimestamp? : Option DateValue :=
  ((readOffsetTimestamp? text <|> readLocalTimestamp? text).map fun t =>
    { instant := t, format := some isoFormat })
  <|> ((readMailTimestamp? text).map fun t => { instant := t, format := some mailFormat })
  <|> readTimestampPattern? text

def readTrimmed? : Option DateValue :=
  readDay? now text <|> readMonth? now text <|> readYear? now text <|> readWeek? now text <|>
    readTime? now text <|> readTimestamp? text

/-- Reads a date expression. -/
def DateValue.read? : Option DateValue := readTrimmed? now (trim text)

end Reading

def unreadable (text : String) : String := "could not parse [" ++ text ++ "] as date"

section Writing

variable (now : Instant)

namespace Granularity

/-- A period in the form of ISO 8601 that is just as precise. -/
def isoText (g : Granularity) (t : Instant) : List Char :=
  match g with
  | day | week => writeFields [.year, .literal '-', .month, .literal '-', .day true] t
  | month => writeFields [.year, .literal '-', .month] t
  | year => writeFields [.year] t

end Granularity

/-- An instant in a named form. A form that is not known gives way to the form of
ISO 8601 for the period. -/
def writeFormat (format : String) (t : Instant) (period : Option Granularity) : List Char :=
  if format = isoFormat then isoText t
  else if format = mailFormat then mailText t
  else if format = weekFormat then "week ".toList ++ (toString (weekNumber t.day)).toList
  else match Pattern.ofName? format with
    | some p => p.write t
    | none => match period with
      | some g => g.isoText t
      | none => isoText t

/-- A day that was written in words is written in words while it is near: by its
distance, or by its name within the present week. -/
def writeDay (t : Instant) (format : String) : List Char :=
  let near := dayWords.any fun w => sameLetters w.1.toList format.toList
  if near && Granularity.day.isSame now t then "today".toList
  else if near && Granularity.day.isSame (now.addDays (-1)) t then "yesterday".toList
  else if near && Granularity.day.isSame (now.addDays 1) t then "tomorrow".toList
  else if near && Granularity.week.isSame now t then Field.write t .weekdayLong
  else writeFormat format t (some .day)

/-- How far a step out of a period may go: two months out of a year, two days
otherwise. -/
def slack (g : Granularity) (t : Instant) (n : Int) : Instant :=
  match g with
  | .year => Granularity.month.shift t n
  | _ => Granularity.day.shift t n

/-- The last millisecond of the period that holds an instant. -/
def lastMillisecond (g : Granularity) (t : Instant) : Instant :=
  ⟨(g.next t).day - 1, ⟨86399, by decide⟩, ⟨999000000, by decide⟩⟩

/-- A period that was written in words is written in words while it is near. -/
def writePeriod (g : Granularity) (t : Instant) (format : String) : List Char :=
  let near := periodWords.any fun w => sameLetters (phrase w g).toList format.toList
  if near && g.isSame now t then (phrase "this" g).toList
  else if near && g.isSame (slack g (g.start now) (-2)) t then (phrase "last" g).toList
  else if near && g.isSame (slack g (lastMillisecond g now) 2) t then (phrase "next" g).toList
  else writeFormat format t (some g)

/-- Writes a date value. A value without a form is written as a timestamp, and
`default` is the period of a value that has a form but no period. -/
def DateValue.write (default : Option Granularity) (d : DateValue) : List Char :=
  match d.format with
  | none => isoText d.instant
  | some format => match d.granularity <|> default with
    | some .day => writeDay now d.instant format
    | some g => writePeriod now g d.instant format
    | none => writeFormat format d.instant none

end Writing

end SearchBar.Calendar
