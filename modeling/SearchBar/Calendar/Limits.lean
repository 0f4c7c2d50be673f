import SearchBar.Calendar.Expression

/-! # Limits of dates

Days are counted without end and every date can be written. The program keeps its calendar
for a range of years, and the date line of a message has room for years of four digits: what
goes beyond stops the program. A check follows a calculation over the instants that it steps
to and ends where it does. Steps by months and years never go beyond.
-/

namespace SearchBar.Calendar

open Text

/-- What stops the program. -/
inductive Limit
  /-- A step by days or weeks leaves the years that are kept. -/
  | calendar
  /-- The date line of a message has no room for the year. -/
  | mailYear
deriving DecidableEq, Repr

abbrev Attempt := Except Limit

section Checks

variable {α : Type}

/-- Checks items one after another, up to the first one that is found. -/
def checkUntil (check : α → Attempt Unit) (found : α → Bool) : List α → Attempt Unit
  | [] => .ok ()
  | a :: as => do
    check a
    if found a then .ok () else checkUntil check found as

def checkAll (check : α → Attempt Unit) : List α → Attempt Unit := checkUntil check fun _ => false

end Checks

def Instant.check (t : Instant) : Attempt Unit := if t.IsKept then .ok () else .error .calendar

namespace Granularity

def startOf (g : Granularity) (t : Instant) : Attempt Instant := do
  (g.start t).check
  return g.start t

def startOfNext (g : Granularity) (t : Instant) : Attempt Instant := do
  (g.start t).check
  (g.next t).check
  return g.next t

def shiftBy (g : Granularity) (t : Instant) (n : Int) : Attempt Instant := do
  (g.shift t n).check
  return g.shift t n

def checkSame (g : Granularity) (a b : Instant) : Attempt Unit := do
  (g.start a).check
  (g.start b).check

end Granularity

/-- The first instant of the window of a value, and the first one behind it. -/
def DateValue.range (d : DateValue) : Attempt (Instant × Instant) := do
  let first ← d.unit.startOf d.instant
  let next ← d.unit.startOfNext d.instant
  return (first, next)

def checkWeekNumber (t : Instant) : Attempt Unit := do
  let first := Granularity.week.start t
  let last := first.addDays 6
  first.check
  last.check
  (Granularity.week.start (Granularity.year.start last)).check

def weekNumberAt (t : Instant) : Attempt Int := do
  checkWeekNumber t
  return weekNumber t.day

section Reading

variable (now : Instant) (text : List Char)

/-- The names of the days of the present week, the short ones first. -/
def weekdayNamesOf (first : Instant) : List (Pattern × Instant) :=
  Pattern.weekdays.flatMap fun p => (List.range 7).map fun n : Nat => (p, first.addDays n)

def checkReadDay : Attempt Unit :=
  match dayWords.find? fun w => w.1.toList == lower text with
  | some w => (now.addDays w.2).check
  | none => do
    let first := Granularity.week.start now
    first.check
    checkUntil (·.2.check) (fun c => sameLetters (c.1.write c.2) text) (weekdayNamesOf first)

def checkReadMonth : Attempt Unit :=
  if (phrase "last" .month).toList = lower text then
    ((Granularity.month.start now).addDays (-2)).check
  else .ok ()

/-- The words for weeks near the present one, with their distances. -/
def weekWords : List (String × Int) := [("this", 0), ("last", -1), ("next", 1)]

def checkReadWeekNumber : Attempt Unit :=
  match readWeekDigits? text with
  | some n =>
    if 1 ≤ n ∧ n ≤ 53 then do
      (Granularity.week.start (Granularity.year.start now)).check
      (Instant.midnight (numberedWeek now n)).check
      checkWeekNumber (.midnight (numberedWeek now n))
    else .ok ()
  | none => .ok ()

def checkReadWeek : Attempt Unit :=
  match weekWords.find? fun w => (phrase w.1 .week).toList == lower text with
  | some w => do
    let t := Granularity.week.shift now w.2
    t.check
    (Granularity.week.start t).check
  | none => checkReadWeekNumber now text

def checkReadTrimmed : Attempt Unit := do
  checkReadDay now text
  if (readDay? now text).isNone then
    checkReadMonth now text
    if (readMonth? now text <|> readYear? now text).isNone then checkReadWeek now text

namespace DateValue

def checkRead : Attempt Unit := checkReadTrimmed now (trim text)

/-- Reads a date expression within the limits. -/
def parse : Attempt (Option DateValue) := do
  checkRead now text
  return read? now text

end DateValue

end Reading

section Writing

variable (now : Instant)

def checkFormat (format : String) (t : Instant) : Attempt Unit :=
  if format = mailFormat then (if t.HasPlainYear then .ok () else .error .mailYear)
  else if format = weekFormat then checkWeekNumber t
  else .ok ()

def checkWriteDay (t : Instant) (format : String) : Attempt Unit :=
  if dayWords.any fun w => sameLetters w.1.toList format.toList then
    if Granularity.day.isSame now t then .ok ()
    else do
      (now.addDays (-1)).check
      if Granularity.day.isSame (now.addDays (-1)) t then .ok ()
      else do
        (now.addDays 1).check
        if Granularity.day.isSame (now.addDays 1) t then .ok ()
        else do
          Granularity.week.checkSame now t
          if Granularity.week.isSame now t then .ok () else checkFormat format t
  else checkFormat format t

def checkWritePeriod (g : Granularity) (t : Instant) (format : String) : Attempt Unit :=
  if periodWords.any fun w => sameLetters (phrase w g).toList format.toList then do
    g.checkSame now t
    if g.isSame now t then .ok ()
    else do
      let before := slack g (g.start now) (-2)
      before.check
      g.checkSame before t
      if g.isSame before t then .ok ()
      else do
        let last := lastMillisecond g now
        let behind := slack g last 2
        (g.next now).check
        last.check
        behind.check
        g.checkSame behind t
        if g.isSame behind t then .ok () else checkFormat format t
  else checkFormat format t

namespace DateValue

def checkWrite (default : Option Granularity) (d : DateValue) : Attempt Unit :=
  match d.format with
  | none => .ok ()
  | some format => match d.granularity <|> default with
    | some .day => checkWriteDay now d.instant format
    | some g => checkWritePeriod now g d.instant format
    | none => checkFormat format d.instant

/-- Writes a date value within the limits. -/
def print (default : Option Granularity) (d : DateValue) : Attempt (List Char) := do
  d.checkWrite now default
  return d.write now default

end DateValue

end Writing

end SearchBar.Calendar
