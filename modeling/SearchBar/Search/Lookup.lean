import SearchBar.Calendar.Expression
import SearchBar.Record.Json

/-! # Fields of records

A field is looked up by its whole name first, then by the parts of its name
between dots. What is found may be read as a number, a truth value or an instant,
also from the texts that stand for them.
-/

namespace SearchBar.Json

open Calendar Text

def pathParts (name : List Char) : List (List Char) := name.splitOn '.'

def follow? (record : Json) : List (List Char) → Option Json
  | [] => some record
  | part :: parts => (record.member? (String.ofList part)).bind (follow? · parts)

def isNull : Json → Bool
  | null => true
  | _ => false

/-- The value of a field; a null counts as none. -/
def lookup? (record : Json) (name : String) : Option Json :=
  ((record.member? name) <|> record.follow? (pathParts name.toList)).filter fun v => !v.isNull

def numberText? : Json → Option (List Char)
  | int n => some (toString n).toList
  | float x => some x.recordText
  | _ => none

def readNumber : Json → Option Binary64
  | str s => Binary64.read? (trim s.toList)
  | v => v.number?

def readBool : Json → Option Bool
  | bool b => some b
  | str s =>
    if sameLetters s.toList "true".toList then some true
    else if sameLetters s.toList "false".toList then some false
    else none
  | _ => none

/-- Milliseconds from the epoch to an instant of a kept year. -/
def instantOfMillis? (n : Int) : Option Instant :=
  if yearKept (yearOf (Instant.ofMillis n).day) then some (.ofMillis n) else none

def readDay? (cs : List Char) : Option Instant :=
  ((readFields? [.year, .literal '-', .month, .literal '-', .day true] {} cs).bind Parts.day?).map
    .midnight

/-- An instant: a timestamp with an offset, a day, or milliseconds from the epoch. -/
def readInstant : Json → Option Instant
  | str s => readOffsetTimestamp? s.toList <|> readDay? s.toList
  | int n => if n < 2 ^ 63 then instantOfMillis? n else none
  | _ => none

end SearchBar.Json
