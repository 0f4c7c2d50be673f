import SearchBar.Calendar.Pattern

/-! # Timestamps

The interchange forms of an instant: the extended form of ISO 8601 with and
without an offset, and the date line of electronic mail.
-/

namespace SearchBar.Calendar

open Text

/-- `YYYY-MM-DDTHH:MM:SS`, without the offset. -/
def secondsText (t : Instant) : List Char :=
  writeFields [.year, .literal '-', .month, .literal '-', .day true, .literal 'T', .hour true,
    .literal ':', .minute, .literal ':', .second] t

/-- `YYYY-MM-DDTHH:MM:SSZ`; a fraction of a second is dropped. -/
def isoText (t : Instant) : List Char := secondsText t ++ ['Z']

/-- The form of `isoText` with the fraction of the second. -/
def exactText (t : Instant) : List Char := secondsText t ++ fractionText t.fraction ++ ['Z']

def mailText (t : Instant) : List Char :=
  writeFields [.weekdayShort, .literal ',', .gap, .day false, .gap, .monthShort, .gap, .year, .gap,
    .hour true, .literal ':', .minute, .literal ':', .second] t ++ " +0000".toList

def takeExact? (width : Nat) (cs : List Char) : Option (Nat × List Char) :=
  if (cs.take width).length = width ∧ (cs.take width).all Char.isDigit then
    some (Decimal.natOfDigits (cs.take width), cs.drop width)
  else none

/-- A number of exactly `width` digits that lies in a range. -/
def takeExactBetween? (low high width : Nat) (cs : List Char) : Option (Nat × List Char) :=
  (takeExact? width cs).filter fun r => decide (low ≤ r.1) && decide (r.1 ≤ high)

def takeChar? (c : Char) : List Char → Option (List Char)
  | d :: cs => if d = c then some cs else none
  | [] => none

/-- The digits `HHMM` of an offset, with `between` standing between them, in
seconds. -/
def takeOffsetDigits? (between : List Char → Option (List Char)) (cs : List Char) :
    Option (Int × List Char) := do
  let (h, cs) ← takeExact? 2 cs
  let cs ← between cs
  let (m, cs) ← takeExactBetween? 0 59 2 cs
  some (h * 3600 + m * 60, cs)

/-- An offset from universal time: `Z`, or a sign, hours, a colon and minutes. -/
def takeOffset? : List Char → Option (Int × List Char)
  | [] => none
  | c :: cs =>
    if c = 'Z' ∨ c = 'z' then some (0, cs)
    else if c = '+' then takeOffsetDigits? (takeChar? ':') cs
    else if c = '-' ∨ c = '\u2212' then
      (takeOffsetDigits? (takeChar? ':') cs).map fun r => (-r.1, r.2)
    else none

/-- Offsets of less than a day. -/
def offsetKept (n : Int) : Bool := decide (-86400 < n) && decide (n < 86400)

/-- The fraction of a second, which may be absent. -/
def takeOptionalFraction? : List Char → Option (Nat × List Char)
  | '.' :: cs => takeFraction? cs
  | cs => some (0, cs)

/-- Reads a full timestamp with an offset. Every number has its full width. -/
def readOffsetTimestamp? (cs : List Char) : Option Instant := do
  let (year, cs) ← takeExact? 4 cs
  let cs ← takeChar? '-' cs
  let (month, cs) ← takeExactBetween? 1 12 2 cs
  let cs ← takeChar? '-' cs
  let (day, cs) ← takeExactBetween? 1 31 2 cs
  let cs ← takeChar? 'T' cs <|> takeChar? 't' cs <|> takeChar? ' ' cs
  let (hour, cs) ← takeExactBetween? 0 23 2 cs
  let cs ← takeChar? ':' cs
  let (minute, cs) ← takeExactBetween? 0 59 2 cs
  let cs ← takeChar? ':' cs
  let (second, cs) ← takeExactBetween? 0 60 2 cs
  let (nano, cs) ← takeOptionalFraction? cs
  let (offset, cs) ← takeOffset? cs
  if cs.isEmpty && offsetKept offset then
    let t ← ({ year := some (year : Int), month, day, hour, minute, second, nano } : Parts).instant?
    some (t.behind offset)
  else none

def localForms : List (List Field) :=
  let date : List Field := [.year, .literal '-', .month, .literal '-', .day true]
  let clock : List Field := [.hour true, .literal ':', .minute]
  let seconds : List Field := [.literal ':', .second, .fraction]
  [date ++ [.literal 'T'] ++ clock ++ seconds, date ++ [.literal 'T'] ++ clock,
    date ++ [.gap] ++ clock ++ seconds, date ++ [.gap] ++ clock]

def readLocalTimestamp? (cs : List Char) : Option Instant :=
  localForms.findSome? fun form => (readFields? form {} cs).bind Parts.instant?

def takeBlanks? : List Char → Option (List Char)
  | c :: cs => if isBlank c then some (trimStart cs) else none
  | [] => none

/-- Names of zones in the date line of a message, with their hours. -/
def mailZones : List (String × Int) :=
  [("gmt", 0), ("ut", 0), ("z", 0), ("edt", -4), ("est", -5), ("cdt", -5), ("cst", -6),
    ("mdt", -6), ("mst", -7), ("pdt", -7), ("pst", -8)]

/-- A named zone. A single letter other than `J` has no known offset and counts as
universal time. -/
def mailZone? (name : List Char) : Option Int :=
  match mailZones.find? fun z => sameLetters z.1.toList name with
  | some z => some (z.2 * 3600)
  | none => match name with
    | [c] => if c.toLower = 'j' then none else some 0
    | _ => none

/-- The zone of a date line: a name, or a sign, hours and minutes. -/
def takeMailZone? (cs : List Char) : Option (Int × List Char) :=
  let name := cs.takeWhile Char.isAlpha
  if !name.isEmpty then (mailZone? name).map fun n => (n, cs.dropWhile Char.isAlpha)
  else match cs with
    | '+' :: cs => takeOffsetDigits? some cs
    | '-' :: cs => (takeOffsetDigits? some cs).map fun r => (-r.1, r.2)
    | _ => none

/-- The text behind a comment that is open to a depth. A backslash takes the next
character out of account. -/
def skipComment? (depth : Nat) : List Char → Option (List Char)
  | [] => none
  | '\\' :: cs => match cs with
    | [] => none
    | _ :: cs => skipComment? depth cs
  | c :: cs =>
    if c = '(' then skipComment? (depth + 1) cs
    else if c = ')' then
      if depth = 1 then some cs else skipComment? (depth - 1) cs
    else skipComment? depth cs

theorem length_lt_of_skipComment {depth : Nat} {cs rest : List Char}
    (h : skipComment? depth cs = some rest) : rest.length < cs.length := by
  fun_induction skipComment? depth cs <;> grind

def skipComments (cs : List Char) : List Char :=
  match _hc : trimStart cs with
  | '(' :: inner =>
    match _h : skipComment? 1 inner with
    | some rest => skipComments rest
    | none => cs
  | _ => cs
termination_by cs.length
decreasing_by
  have a := length_lt_of_skipComment _h
  have b := length_trimStart_le cs
  rw [_hc, List.length_cons] at b
  omega

/-- Years of two digits lie from 1950 to 2049, years of three count from 1900. -/
def mailYear (digits y : Nat) : Int :=
  if digits = 2 then (if y < 50 then y + 2000 else y + 1900)
  else if digits = 3 then y + 1900
  else y

/-- The day of the week at the beginning of a date line, if there is one. -/
def takeMailWeekday? (cs : List Char) : Option (Option Nat × List Char) :=
  match takeOneOf? (weekdayNames.map fun n => n.toList.take 3) cs with
  | some (w, rest) => (takeChar? ',' rest).map fun rest => (some w, rest)
  | none => some (none, cs)

def takeMailSeconds? (cs : List Char) : Option (Option Nat × List Char) :=
  match takeChar? ':' (trimStart cs) with
  | some cs => (takeExactBetween? 0 60 2 cs).map fun r => (some r.1, r.2)
  | none => some (none, cs)

/-- Reads the date line of a message. A day of the week has to be the right one, and the
calendar has to be kept at the instant in universal time. -/
def readMailTimestamp? (cs : List Char) : Option Instant := do
  let (week, cs) ← takeMailWeekday? (trimStart cs)
  let (day, cs) ← takeBetween? 1 31 2 (trimStart cs)
  let cs ← takeBlanks? cs
  let (month, cs) ← takeMonthShort? cs
  let cs ← takeBlanks? cs
  let digits := cs.takeWhile Char.isDigit
  let year := mailYear digits.length (Decimal.natOfDigits digits)
  let cs ← takeBlanks? (cs.dropWhile Char.isDigit)
  let (hour, cs) ← takeExactBetween? 0 23 2 cs
  let cs ← takeChar? ':' (trimStart cs)
  let (minute, cs) ← takeExactBetween? 0 59 2 (trimStart cs)
  let (second, cs) ← takeMailSeconds? cs
  let cs ← takeBlanks? cs
  let (offset, cs) ← takeMailZone? cs
  if 2 ≤ digits.length && (skipComments cs).isEmpty && offsetKept offset then
    let t ← ({ year := some year, month, day, hour, minute, second } : Parts).instant?
    if week.all (· == weekday t.day) ∧ (t.behind offset).IsKept then some (t.behind offset)
    else none
  else none

end SearchBar.Calendar
