import SearchBar.Query.Basic
import SearchBar.Text.Blank
import SearchBar.Text.Escaped

/-! # Query strings

A query becomes one line of text for a search engine, in which clauses are joined
by `AND` and texts with reserved characters are quoted.
-/

namespace SearchBar

open Calendar Text

def reservedChars : List Char :=
  ['+', '-', '=', '&', '|', '>', '<', '!', '(', ')', '\x7b', '\x7d', '[', ']', '^', '"', '~', '*',
    '?', ':', '\\', '/']

def keywords : List (List Char) := [['A', 'N', 'D'], ['O', 'R'], ['N', 'O', 'T']]

def isReservedText (cs : List Char) : Bool :=
  cs.isEmpty || keywords.contains cs || cs.any fun c => isBlank c || reservedChars.contains c

def escaped (cs : List Char) : List Char := if isReservedText cs then quoted cs else cs

/-- A number stands for itself behind an escaped sign. -/
def escapedNumber : List Char → List Char
  | '-' :: cs => '\\' :: '-' :: cs
  | cs => cs

/-- The window of a date, or the side of it that an operator names. -/
def dateRange (op : Operator) (d : DateValue) : List Char :=
  let first := quoted (isoText d.opening)
  let next := quoted (isoText d.closing)
  match op with
  | .eq => '[' :: first ++ " TO ".toList ++ next ++ ['\x7d']
  | .gt => '>' :: '=' :: next
  | .gte => '>' :: '=' :: first
  | .lt => '<' :: first
  | .lte => '<' :: next

/-- The sign of an operator in front of a value; equality has none. -/
def comparisonSign (op : Operator) : List Char := if op = .eq then [] else op.sign.toList

def comparisonText (op : Operator) : Value → List Char
  | .date d => dateRange op d
  | .number x => comparisonSign op ++ escapedNumber x.plainText
  | .bool b => comparisonSign op ++ escaped (Value.boolText b)
  | .text s => comparisonSign op ++ escaped s.toList

namespace Clause

def queryStringBody : Clause → List Char
  | term s _ => escaped s.toList
  | field n op v _ => n.toList ++ ':' :: comparisonText op v
  | oneOf n vs _ =>
    n.toList ++ [':', '('] ++ " OR ".toList.intercalate (vs.map (comparisonText .eq)) ++ [')']
  | flag n _ => n.toList ++ ":true".toList

def queryString (c : Clause) : List Char :=
  if c.must then c.queryStringBody else "NOT ".toList ++ c.queryStringBody

end Clause

namespace Query

def toStringChars (q : Query) : List Char :=
  if q.clauses.isEmpty then ['*'] else " AND ".toList.intercalate (q.clauses.map (·.queryString))

/-- The query string of a query; the empty query matches everything. -/
def toQueryString (q : Query) : String := String.ofList q.toStringChars

/-- The query string of a query within the limits of dates. -/
def compileString (q : Query) : Attempt String := do
  checkAll (fun c => checkAll Value.checkRange c.values) q.clauses
  return q.toQueryString

end Query

end SearchBar
