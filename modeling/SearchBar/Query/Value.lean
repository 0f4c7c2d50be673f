import SearchBar.Calendar.Limits
import SearchBar.Record.Json

/-! # Values

What a field is compared with: a text, a number, a truth value or a date.
-/

namespace SearchBar

open Calendar

inductive Value
  | text (s : String)
  | number (x : Binary64)
  | bool (b : Bool)
  | date (d : DateValue)
deriving Repr

namespace Value

/-- Equality of values of one kind. Numbers and dates bring their own equality, so a
NaN differs from itself and the form of a date does not count. -/
def same : Value → Value → Bool
  | text a, text b => a == b
  | number a, number b => a == b
  | bool a, bool b => a == b
  | date a, date b => a == b
  | _, _ => false

instance : BEq Value := ⟨same⟩

/-- The value that an unquoted word writes: a truth value, a plain numeral, or else
the word itself. -/
def ofWord (word : List Char) : Value :=
  if word = "true".toList then bool true
  else if word = "false".toList then bool false
  else match Binary64.readPlain? word with
    | some x => number x
    | none => text (String.ofList word)

def isText : Value → Bool
  | text _ => true
  | _ => false

/-- The value as JSON: a date is its timestamp, and a number that is not finite is
null. -/
def toJson : Value → Json
  | text s => .str s
  | number x => .ofBinary64 x
  | bool b => .bool b
  | date d => .str (String.ofList (isoText d.instant))

def boolText (b : Bool) : List Char := (if b then "true" else "false").toList

/-- The bare text of a value; a date is written relative to `now`. -/
def plainText (now : Instant) : Value → List Char
  | text s => s.toList
  | number x => x.plainText
  | bool b => boolText b
  | date d => d.write now none

def checkWrite (now : Instant) : Value → Attempt Unit
  | date d => d.checkWrite now none
  | _ => .ok ()

def checkRange : Value → Attempt Unit
  | date d => discard d.range
  | _ => .ok ()

end Value

end SearchBar
