import SearchBar.Query.Reader
import SearchBar.Query.Writer

/-! # Snapshots

A snapshot pairs a query with its text. A query that was read keeps the text it
was read from; a query that was derived from another one is written.
-/

namespace SearchBar

open Calendar

/-- How queries are read and written. -/
structure Grammar where
  read : String → Attempt (Except (List Diagnostic) Query)
  write : Query → Attempt String

def Grammar.standard (dialect : Dialect) (now : Instant) : Grammar where
  read := Query.parse dialect now
  write := Query.print now

structure Snapshot where
  query : Query
  grammar : Grammar
  /-- The text that the query was read from. -/
  source : Option String := none

namespace Snapshot

def read (g : Grammar) (text : String) : Attempt (Except (List Diagnostic) Snapshot) := do
  let r ← g.read text
  return r.map fun q => { query := q, grammar := g, source := some text }

def ofQuery (g : Grammar) (q : Query) : Snapshot := { query := q, grammar := g }

def text (s : Snapshot) : Attempt String :=
  match s.source with
  | some text => .ok text
  | none => s.grammar.write s.query

/-- The snapshot of a query made from the one of a snapshot. -/
def derive (s : Snapshot) (f : Query → Query) : Snapshot := .ofQuery s.grammar (f s.query)

@[simp] theorem query_derive (s : Snapshot) (f : Query → Query) :
    (s.derive f).query = f s.query := rfl

@[simp] theorem text_derive (s : Snapshot) (f : Query → Query) :
    (s.derive f).text = s.grammar.write (f s.query) := rfl

end Snapshot

end SearchBar
