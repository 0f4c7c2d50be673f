import SearchBar.Record.Json

/-! # Writing JSON

The compact form stands on one line, the laid-out form gives each item a line of
its own.
-/

namespace SearchBar.Json

def hexDigit (n : Nat) : Char := Nat.digitChar (n % 16)

/-- A character inside a string. Only quotes, backslashes and control characters
are escaped. -/
def charText (c : Char) : List Char :=
  if c = '"' then ['\\', '"']
  else if c = '\\' then ['\\', '\\']
  else if c = '\n' then ['\\', 'n']
  else if c = '\r' then ['\\', 'r']
  else if c = '\t' then ['\\', 't']
  else if c = '\x08' then ['\\', 'b']
  else if c = '\x0c' then ['\\', 'f']
  else if c.toNat < 32 then ['\\', 'u', '0', '0', hexDigit (c.toNat / 16), hexDigit c.toNat]
  else [c]

def stringText (s : String) : List Char := '"' :: s.toList.flatMap charText ++ ['"']

def scalarText : Json → List Char
  | bool b => (toString b).toList
  | int n => (toString n).toList
  | float x => x.recordText
  | str s => stringText s
  | _ => "null".toList

mutual

def compact : Json → List Char
  | arr items => '[' :: compactItems items ++ [']']
  | obj members => '\x7b' :: compactMembers members ++ ['\x7d']
  | v => scalarText v

def compactItems : List Json → List Char
  | [] => []
  | [v] => compact v
  | v :: vs => compact v ++ ',' :: compactItems vs

def compactMembers : List (String × Json) → List Char
  | [] => []
  | [(k, v)] => stringText k ++ ':' :: compact v
  | (k, v) :: ms => stringText k ++ ':' :: compact v ++ ',' :: compactMembers ms

end

def newLine (indent : Nat) : List Char := '\n' :: List.replicate (2 * indent) ' '

mutual

/-- The laid-out form, inside `indent` arrays and objects. -/
def laidOut (indent : Nat) : Json → List Char
  | arr [] => ['[', ']']
  | arr items => '[' :: laidOutItems (indent + 1) items ++ newLine indent ++ [']']
  | obj [] => ['\x7b', '\x7d']
  | obj members => '\x7b' :: laidOutMembers (indent + 1) members ++ newLine indent ++ ['\x7d']
  | v => scalarText v

def laidOutItems (indent : Nat) : List Json → List Char
  | [] => []
  | [v] => newLine indent ++ laidOut indent v
  | v :: vs => newLine indent ++ laidOut indent v ++ ',' :: laidOutItems indent vs

def laidOutMembers (indent : Nat) : List (String × Json) → List Char
  | [] => []
  | [(k, v)] => newLine indent ++ stringText k ++ ": ".toList ++ laidOut indent v
  | (k, v) :: ms =>
    newLine indent ++ stringText k ++ ": ".toList ++ laidOut indent v ++
      ',' :: laidOutMembers indent ms

end

end SearchBar.Json
