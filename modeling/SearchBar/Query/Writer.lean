import SearchBar.Query.Basic
import SearchBar.Text.Blank
import SearchBar.Text.Escaped

/-! # Writing a query

Clauses are written as they are read. A text is quoted if the bare word would be
read as something else.
-/

namespace SearchBar

open Calendar Text

/-- Characters that end a bare word or give it another meaning. -/
def specials : List Char := ['(', ')', '"', '\\', ':', '<', '>']

def needsQuotes (cs : List Char) : Bool :=
  cs.isEmpty || cs.head? == some '-' || sameLetters cs ['o', 'r']
    || cs.any (fun c => isBlank c || specials.contains c) || !(Value.ofWord cs).isText

def wordText (cs : List Char) : List Char := if needsQuotes cs then quoted cs else cs

def Value.clauseText (now : Instant) : Value → List Char
  | text s => wordText s.toList
  | date d => wordText (d.write now none)
  | v => v.plainText now

namespace Clause

def body (now : Instant) : Clause → List Char
  | term s _ => wordText s.toList
  | field n op v _ => n.toList ++ op.sign.toList ++ v.clauseText now
  | oneOf n vs _ =>
    n.toList ++ [':', '('] ++ [' ', 'o', 'r', ' '].intercalate (vs.map (·.clauseText now)) ++ [')']
  | flag n _ => ['i', 's', ':'] ++ n.toList

def write (now : Instant) (c : Clause) : List Char :=
  if c.must then c.body now else '-' :: c.body now

def checkWrite (now : Instant) (c : Clause) : Attempt Unit := checkAll (·.checkWrite now) c.values

end Clause

namespace Query

def writeChars (now : Instant) (q : Query) : List Char :=
  [' '].intercalate (q.clauses.map (·.write now))

def write (now : Instant) (q : Query) : String := String.ofList (q.writeChars now)

def checkWrite (now : Instant) (q : Query) : Attempt Unit := checkAll (·.checkWrite now) q.clauses

/-- Writes a query within the limits of dates. -/
def print (now : Instant) (q : Query) : Attempt String := do
  q.checkWrite now
  return q.write now

end Query

end SearchBar
