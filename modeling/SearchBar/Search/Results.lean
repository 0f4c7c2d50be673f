import SearchBar.Query.Writer
import SearchBar.Search.Match

/-! # Search results

The records that meet every clause of a query, in their order. With a trail each
of them says which clauses were tried.
-/

namespace SearchBar

open Calendar

/-- The key under which a record carries its trail. -/
def trailKey : String := "__explain"

def Clause.trail (now : Instant) (options : SearchOptions) (record : Json) (c : Clause) : Json :=
  .ofMembers [("clause", .str (String.ofList (c.write now))), ("type", .str c.kind),
    ("hit", .bool (c.holds options record))]

/-- A record with a trail; only an object can carry one. -/
def Json.withTrail (trail : List Json) : Json → Json
  | .obj members => .obj (Json.insert trailKey (.arr trail) members)
  | v => v

namespace Query

def holds (q : Query) (options : SearchOptions) (record : Json) : Bool :=
  q.clauses.all (·.holds options record)

def search (q : Query) (now : Instant) (options : SearchOptions) (records : List Json) :
    List Json :=
  records.filterMap fun record =>
    if options.explain then
      let hits := q.clauses.map (·.holds options record)
      if hits.all id then some (record.withTrail (q.clauses.map (·.trail now options record)))
      else none
    else if q.holds options record then some record else none

/-- With trails every clause is tried and written, without them the first clause that a record
does not meet is the last one tried. -/
def checkRecord (q : Query) (now : Instant) (options : SearchOptions) (record : Json) :
    Attempt Unit :=
  if options.explain then
    checkAll (fun c => do
      c.checkHolds record
      c.checkWrite now) q.clauses
  else checkUntil (·.checkHolds record) (fun c => !c.holds options record) q.clauses

/-- Searches records within the limits of dates. -/
def execute (q : Query) (now : Instant) (options : SearchOptions) (records : List Json) :
    Attempt (List Json) := do
  checkAll (q.checkRecord now options) records
  return q.search now options records

end Query

end SearchBar
