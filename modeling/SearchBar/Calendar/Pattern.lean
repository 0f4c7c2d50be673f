import SearchBar.Text.Blank
import SearchBar.Text.LowerCase
import SearchBar.Number.Decimal
import SearchBar.Calendar.Instant

/-! # Date patterns

A pattern is a list of fields. The same list writes an instant and reads the
parts of a date and of a time of day. Reading is more lenient than writing: a
number may be short of its padding and follow blanks, and a gap may be wider or
missing.
-/

namespace SearchBar.Calendar

open Text

inductive Field
  | literal (c : Char)
  | gap
  | year
  | yearOfCentury
  | month
  | monthShort
  | monthLong
  | day (padded : Bool)
  | hour (padded : Bool)
  | hourOfHalf (padded : Bool)
  | minute
  | second
  | fraction
  | half (capital : Bool)
  | weekdayShort
  | weekdayLong
deriving DecidableEq, Repr

def monthNames : List String :=
  ["January", "February", "March", "April", "May", "June", "July", "August", "September",
    "October", "November", "December"]

def weekdayNames : List String :=
  ["Sunday", "Monday", "Tuesday", "Wednesday", "Thursday", "Friday", "Saturday"]

/-- The name of a month counted from one. -/
def monthName (m : Nat) : List Char := (monthNames.getD (m - 1) "").toList

/-- The name of a day of the week counted from Sunday. -/
def weekdayName (w : Nat) : List Char := (weekdayNames.getD w "").toList

/-- Digits of a number with zeros in front up to a width. -/
def padded (width n : Nat) : List Char :=
  let digits := Decimal.digitsOfNat n
  List.replicate (width - digits.length) '0' ++ digits

/-- A year with four digits at least, and a sign if it is not from 0 to 9999. -/
def yearText (y : Int) : List Char :=
  if 0 ≤ y ∧ y ≤ 9999 then padded 4 y.toNat
  else (if y < 0 then '-' else '+') :: padded 4 y.natAbs

def twoDigits (isPadded : Bool) (n : Nat) : List Char :=
  if isPadded then padded 2 n else Decimal.digitsOfNat n

/-- A fraction of a second with three, six or nine digits; none if it is zero. -/
def fractionText (nano : Nat) : List Char :=
  if nano = 0 then []
  else if nano % 1000000 = 0 then '.' :: padded 3 (nano / 1000000)
  else if nano % 1000 = 0 then '.' :: padded 6 (nano / 1000)
  else '.' :: padded 9 nano

namespace Field

def write (t : Instant) : Field → List Char
  | literal c => [c]
  | gap => [' ']
  | year => yearText (Date.ofDay t.day).year
  | yearOfCentury => padded 2 ((Date.ofDay t.day).year % 100).toNat
  | month => padded 2 (Date.ofDay t.day).month
  | monthShort => (monthName (Date.ofDay t.day).month).take 3
  | monthLong => monthName (Date.ofDay t.day).month
  | day p => twoDigits p (Date.ofDay t.day).day
  | hour p => twoDigits p t.hour
  | hourOfHalf p => twoDigits p (if t.hour % 12 = 0 then 12 else t.hour % 12)
  | minute => padded 2 t.minute
  | second => padded 2 t.secondOfMinute
  | fraction => fractionText t.fraction
  | half true => if t.hour < 12 then ['A', 'M'] else ['P', 'M']
  | half false => if t.hour < 12 then ['a', 'm'] else ['p', 'm']
  | weekdayShort => (weekdayName (weekday t.day)).take 3
  | weekdayLong => weekdayName (weekday t.day)

end Field

structure Parts where
  year : Option Int := none
  yearOfCentury : Option Nat := none
  month : Option Nat := none
  day : Option Nat := none
  hour : Option Nat := none
  hourOfHalf : Option Nat := none
  afternoon : Option Bool := none
  minute : Option Nat := none
  second : Option Nat := none
  nano : Nat := 0
deriving DecidableEq, Repr

/-- A number of one to `width` digits, and the rest of the text. -/
def takeNumber? (width : Nat) (cs : List Char) : Option (Nat × List Char) :=
  let digits := (cs.take width).takeWhile Char.isDigit
  if digits.isEmpty then none
  else some (Decimal.natOfDigits digits, cs.drop digits.length)

def takeLongNumber? (cs : List Char) : Option (Nat × List Char) := takeNumber? cs.length cs

def takeBetween? (low high width : Nat) (cs : List Char) : Option (Nat × List Char) :=
  (takeNumber? width cs).filter fun r => decide (low ≤ r.1) && decide (r.1 ≤ high)

/-- A year of up to four digits, or of any length behind a sign. -/
def takeYear? : List Char → Option (Int × List Char)
  | '-' :: cs => (takeLongNumber? cs).map fun r => (-(r.1 : Int), r.2)
  | '+' :: cs => (takeLongNumber? cs).map fun r => ((r.1 : Int), r.2)
  | cs => (takeNumber? 4 cs).map fun r => ((r.1 : Int), r.2)

/-- The rest of a text behind a word, in letters of any case. -/
def takeWord? (word cs : List Char) : Option (List Char) :=
  if sameLetters (cs.take word.length) word then some (cs.drop word.length) else none

/-- The number of the first of the words that a text begins with. -/
def takeOneOf? (words : List (List Char)) (cs : List Char) : Option (Nat × List Char) :=
  words.zipIdx.findSome? fun w => (takeWord? w.1 cs).map fun rest => (w.2, rest)

def takeMonthShort? (cs : List Char) : Option (Nat × List Char) :=
  (takeOneOf? (monthNames.map fun n => n.toList.take 3) cs).map fun r => (r.1 + 1, r.2)

/-- The first three letters of a month, and the others if they follow. -/
def takeMonthLong? (cs : List Char) : Option (Nat × List Char) :=
  (takeMonthShort? cs).map fun r => (r.1, (takeWord? ((monthName r.1).drop 3) r.2).getD r.2)

/-- Nanoseconds from the digits of a fraction; digits past the ninth are dropped. -/
def takeFraction? (cs : List Char) : Option (Nat × List Char) :=
  let digits := cs.takeWhile Char.isDigit
  if digits.isEmpty then none
  else
    let kept := digits.take 9
    some (Decimal.natOfDigits kept * 10 ^ (9 - kept.length), cs.dropWhile Char.isDigit)

namespace Field

def read? (p : Parts) (cs : List Char) : Field → Option (Parts × List Char)
  | literal c => match cs with
    | d :: rest => if d = c then some (p, rest) else none
    | [] => none
  | gap => some (p, trimStart cs)
  | year => (takeYear? (trimStart cs)).map fun r => ({ p with year := some r.1 }, r.2)
  | yearOfCentury => (takeNumber? 2 (trimStart cs)).map fun r =>
    ({ p with yearOfCentury := some r.1 }, r.2)
  | month => (takeBetween? 1 12 2 (trimStart cs)).map fun r => ({ p with month := some r.1 }, r.2)
  | monthShort => (takeMonthShort? cs).map fun r => ({ p with month := some r.1 }, r.2)
  | monthLong => (takeMonthLong? cs).map fun r => ({ p with month := some r.1 }, r.2)
  | day _ => (takeBetween? 1 31 2 (trimStart cs)).map fun r => ({ p with day := some r.1 }, r.2)
  | hour _ => (takeBetween? 0 23 2 (trimStart cs)).map fun r => ({ p with hour := some r.1 }, r.2)
  | hourOfHalf _ => (takeBetween? 1 12 2 (trimStart cs)).map fun r =>
    ({ p with hourOfHalf := some r.1 }, r.2)
  | minute => (takeBetween? 0 59 2 (trimStart cs)).map fun r => ({ p with minute := some r.1 }, r.2)
  | second => (takeBetween? 0 60 2 (trimStart cs)).map fun r => ({ p with second := some r.1 }, r.2)
  | fraction => match cs with
    | '.' :: rest => (takeFraction? rest).map fun r => ({ p with nano := r.1 }, r.2)
    | _ => some (p, cs)
  | half _ => (takeOneOf? [['a', 'm'], ['p', 'm']] cs).map fun r =>
    ({ p with afternoon := some (r.1 == 1) }, r.2)
  | weekdayShort => none
  | weekdayLong => none

end Field

def readFields? : List Field → Parts → List Char → Option Parts
  | [], p, cs => if cs.isEmpty then some p else none
  | f :: fs, p, cs => (f.read? p cs).bind fun r => readFields? fs r.1 r.2

def writeFields (fs : List Field) (t : Instant) : List Char := fs.flatMap (Field.write t)

namespace Parts

/-- Years of the century up to 69 belong to the century of 2000, the others to the
one before. -/
def fullYear? (p : Parts) : Option Int :=
  match p.year, p.yearOfCentury with
  | some y, _ => some y
  | none, some y => some (if y < 70 then y + 2000 else y + 1900)
  | none, none => none

/-- The day number of the date that was read, if it exists. -/
def day? (p : Parts) : Option Int :=
  match p.fullYear?, p.month, p.day with
  | some y, some m, some d =>
    let date : Date := ⟨y, m, d⟩
    if date.kept then some date.toDay else none
  | _, _, _ => none

def hour24? (p : Parts) : Option Nat :=
  match p.hour, p.hourOfHalf, p.afternoon with
  | some h, _, _ => some h
  | none, some h, some pm => some (h % 12 + if pm then 12 else 0)
  | _, _, _ => none

/-- The instant of a day with the time of day that was read. The second sixty is
the leap second after the second fifty-nine. -/
def at? (p : Parts) (day : Int) : Option Instant :=
  match p.hour24?, p.minute with
  | some h, some m =>
    let s := p.second.getD 0
    let second := h * 3600 + m * 60 + if s = 60 then 59 else s
    let nano := p.nano + if s = 60 then 1000000000 else 0
    if hs : second < 86400 then
      if hn : nano < 2000000000 then some ⟨day, ⟨second, hs⟩, ⟨nano, hn⟩⟩ else none
    else none
  | _, _ => none

/-- The instant of a date and a time of day that were read. -/
def instant? (p : Parts) : Option Instant := p.day?.bind p.at?

end Parts

structure Pattern where
  name : String
  fields : List Field
deriving DecidableEq, Repr

namespace Pattern

open Calendar.Field

def weekdays : List Pattern := [⟨"ddd", [weekdayShort]⟩, ⟨"dddd", [weekdayLong]⟩]

def days : List Pattern :=
  [⟨"D MMM YY", [day false, gap, monthShort, gap, yearOfCentury]⟩,
   ⟨"D MMM YYYY", [day false, gap, monthShort, gap, year]⟩,
   ⟨"DD MMM YY", [day true, gap, monthShort, gap, yearOfCentury]⟩,
   ⟨"DD MMM YYYY", [day true, gap, monthShort, gap, year]⟩,
   ⟨"D MMMM YY", [day false, gap, monthLong, gap, yearOfCentury]⟩,
   ⟨"D MMMM YYYY", [day false, gap, monthLong, gap, year]⟩,
   ⟨"DD MMMM YY", [day true, gap, monthLong, gap, yearOfCentury]⟩,
   ⟨"DD MMMM YYYY", [day true, gap, monthLong, gap, year]⟩,
   ⟨"YYYY-MM-DD", [year, literal '-', month, literal '-', day true]⟩]

def bareMonths : List Pattern := [⟨"MMM", [monthShort]⟩, ⟨"MMMM", [monthLong]⟩]

def months : List Pattern :=
  [⟨"MMM YY", [monthShort, gap, yearOfCentury]⟩,
   ⟨"MMMM YY", [monthLong, gap, yearOfCentury]⟩,
   ⟨"MMM YYYY", [monthShort, gap, year]⟩,
   ⟨"MMMM YYYY", [monthLong, gap, year]⟩,
   ⟨"YYYY MMM", [year, gap, monthShort]⟩,
   ⟨"YYYY MMMM", [year, gap, monthLong]⟩,
   ⟨"YYYY-MM", [year, literal '-', month]⟩]

def years : List Pattern := [⟨"YY", [yearOfCentury]⟩, ⟨"YYYY", [year]⟩]

def times : List Pattern :=
  [⟨"HH:mm", [hour true, literal ':', minute]⟩,
   ⟨"H:mm", [hour false, literal ':', minute]⟩,
   ⟨"h:mm a", [hourOfHalf false, literal ':', minute, gap, half false]⟩,
   ⟨"h:mm A", [hourOfHalf false, literal ':', minute, gap, half true]⟩,
   ⟨"hh:mm a", [hourOfHalf true, literal ':', minute, gap, half false]⟩,
   ⟨"hh:mm A", [hourOfHalf true, literal ':', minute, gap, half true]⟩]

def clock : List Field := [gap, hour true, literal ':', minute]

def clockWithSeconds : List Field := clock ++ [literal ':', second]

def timestamps : List Pattern :=
  [⟨"DD MMM YY HH:mm", [day true, gap, monthShort, gap, yearOfCentury] ++ clock⟩,
   ⟨"DD MMM YY HH:mm:ss", [day true, gap, monthShort, gap, yearOfCentury] ++ clockWithSeconds⟩,
   ⟨"DD MMM YYYY HH:mm", [day true, gap, monthShort, gap, year] ++ clock⟩,
   ⟨"DD MMM YYYY HH:mm:ss", [day true, gap, monthShort, gap, year] ++ clockWithSeconds⟩,
   ⟨"DD MMMM YYYY HH:mm", [day true, gap, monthLong, gap, year] ++ clock⟩,
   ⟨"DD MMMM YYYY HH:mm:ss", [day true, gap, monthLong, gap, year] ++ clockWithSeconds⟩]

def all : List Pattern := weekdays ++ days ++ bareMonths ++ months ++ years ++ times ++ timestamps

def ofName? (name : String) : Option Pattern := all.find? (·.name == name)

def write (p : Pattern) (t : Instant) : List Char := writeFields p.fields t

/-- Reads a day. A text that leaves out the month or the day is completed by
`completion`, which the fields `completedBy` read. The pattern accepts a text only
if it writes the day in the same letters. -/
def readDay? (p : Pattern) (completion : List Char) (completedBy : List Field)
    (text : List Char) : Option Int :=
  ((readFields? (p.fields ++ completedBy) {} (text ++ completion)).bind Parts.day?).filter
    fun d => sameLetters (p.write (.midnight d)) text

end Pattern

end SearchBar.Calendar
