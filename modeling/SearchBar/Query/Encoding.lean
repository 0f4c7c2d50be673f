import SearchBar.Query.Basic

/-! # Queries as JSON

The JSON form of a query lists its clauses with all their parts. Unlike in records
dates keep their period and their form.
-/

namespace SearchBar

open Calendar

/-- A date with the fraction of its instant, its period and its form. -/
def Calendar.DateValue.encode (d : DateValue) : Json :=
  .ofMembers ([("instant", .str (String.ofList (exactText d.instant)))]
    ++ (d.granularity.map fun g => ("granularity", Json.str g.name)).toList
    ++ (d.format.map fun f => ("format", Json.str f)).toList)

def Value.encode : Value → Json
  | date d => d.encode
  | v => v.toJson

def Clause.encode (c : Clause) : Json :=
  .ofMembers ([("type", .str c.kind), ("must", .bool c.must)] ++ match c with
    | term s _ => [("value", .str s)]
    | field n op v _ => [("field", .str n), ("operator", .str op.name), ("value", v.encode)]
    | oneOf n vs _ => [("field", .str n), ("values", .arr (vs.map (·.encode)))]
    | flag n _ => [("flag", .str n)])

def Query.encode (q : Query) : Json := .arr (q.clauses.map (·.encode))

end SearchBar
